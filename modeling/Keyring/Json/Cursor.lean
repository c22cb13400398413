import Keyring.Json.Fault

/-!
# `Keyring.Json.Cursor`: reading position

A cursor is the rest of a text and the place where that rest begins. Faults
are raised either at the cursor or just after the byte that it looks at.
-/

set_option autoImplicit false

namespace Keyring.Json

/-- The rest of a text and where it begins. -/
structure Cursor where
  rest : List Char
  pos : Position
  deriving DecidableEq, Repr

namespace Cursor

/-- The cursor at the start of a text. -/
def ofText (text : String) : Cursor := ⟨text.toList, .start⟩

/-- The cursor after a number of characters. -/
def skip (c : Cursor) : (count : Nat) → Cursor
  | 0 => c
  | count + 1 =>
    match c.rest with
    | [] => c
    | x :: rest => skip ⟨rest, c.pos.past x⟩ count

/-- The cursor after the next character. -/
def next (c : Cursor) : Cursor := c.skip 1

/-- A fault at the cursor. -/
def fault (c : Cursor) (cause : Cause) : Fault := ⟨cause, c.pos⟩

/-- A fault after the byte that the cursor looks at. -/
def faultAhead (c : Cursor) (cause : Cause) : Fault :=
  match c.rest with
  | [] => ⟨cause, c.pos⟩
  | x :: _ => ⟨cause, c.pos.pastByte x⟩

/-- Is the character a blank between the parts of a JSON text? -/
def isBlank (x : Char) : Bool := x == ' ' || x == '\n' || x == '\t' || x == '\x0d'

/-- Passes over blanks. -/
def skipBlanks (c : Cursor) : Cursor := go c.rest c.pos
where
  go : List Char → Position → Cursor
    | [], pos => ⟨[], pos⟩
    | x :: rest, pos => if isBlank x then go rest (pos.past x) else ⟨x :: rest, pos⟩

/-- Passes over decimal digits and returns them. -/
def takeDigits (c : Cursor) : List Char × Cursor := go c.rest c.pos []
where
  go : List Char → Position → List Char → List Char × Cursor
    | [], pos, digits => (digits.reverse, ⟨[], pos⟩)
    | x :: rest, pos, digits =>
      if x.isDigit then go rest (pos.past x) (x :: digits) else (digits.reverse, ⟨x :: rest, pos⟩)

/-- Passes over the letters of a word. -/
def expectWord : (word : List Char) → Cursor → Except Fault Cursor
  | [], c => .ok c
  | w :: word, c =>
    match c.rest with
    | [] => .error (c.fault .endInValue)
    | x :: _ => if x = w then expectWord word c.next else .error (c.faultAhead .expectedWord)

/-- Passes over the colon after a name. -/
def expectColon (c : Cursor) : Except Fault Cursor :=
  let c := c.skipBlanks
  match c.rest with
  | [] => .error (c.fault .endInObject)
  | ':' :: _ => .ok c.next
  | _ => .error (c.faultAhead .expectedColon)

end Cursor
end Keyring.Json
