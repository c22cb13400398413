/-!
# `Keyring.Text.Split`: parts of a text

A text is cut where a given text stands in it. Texts are lists of characters
here.

* `dropStart?_eq_some_iff`: what is left after a start, and only that, follows it.
-/

set_option autoImplicit false

namespace Keyring.Text

/-- The parts of a text before and after the last place where a separator stands. -/
def splitLast? (separator : List Char) : List Char → Option (List Char × List Char)
  | [] => if separator.isEmpty then some ([], []) else none
  | c :: rest =>
    match splitLast? separator rest with
    | some (before, after) => some (c :: before, after)
    | none =>
      if separator.isPrefixOf (c :: rest) then some ([], (c :: rest).drop separator.length)
      else none

/-- What follows a given start of a text. -/
def dropStart? : (start text : List Char) → Option (List Char)
  | [], text => some text
  | _ :: _, [] => none
  | s :: start, c :: text => if s = c then dropStart? start text else none

/-- A beginning is dropped exactly if the text is that beginning and the rest. Both lists are
walked together, and the first character that differs ends the walk. So the rest is
determined, and a text has at most one. -/
theorem dropStart?_eq_some_iff (start text rest : List Char) :
    dropStart? start text = some rest ↔ text = start ++ rest := by
  induction start generalizing text with
  | nil => simp [dropStart?]
  | cons s start ih =>
    cases text with
    | nil => simp [dropStart?]
    | cons c text => by_cases h : s = c <;> simp [dropStart?, h, ih, eq_comm]

end Keyring.Text
