import Keyring.Settings.Tree

/-!
# `Keyring.Settings.KeyPath`: names that lead to parts

The name of a setting may lead into tables and lists: `export.padding` is a
field of a field, `hosts[0]` an item. A name that spells no such path stands
for itself.
-/

set_option autoImplicit false

namespace Keyring.Settings.KeyPath

/-- May the character stand in a part of a path? -/
def isNameChar (c : Char) : Bool := c.isAlphanum || c == ' ' || c == '_' || c == '-'

/-- Does the character count as a blank around an index? -/
def isSpace (c : Char) : Bool := c == ' ' || c == '\t'

/-- Reads an index and the closing bracket after it. -/
def readIndex? (text : List Char) : Option (Int × List Char) :=
  let text := text.dropWhile isSpace
  let (negative, text) :=
    match text with
    | '-' :: rest => (true, rest)
    | _ => (false, text)
  let digits := text.takeWhile Char.isDigit
  match Decimal.Real.digitsValue? digits, (text.drop digits.length).dropWhile isSpace with
  | some n, ']' :: rest =>
    let index : Int := if negative then -n else n
    if -9223372036854775808 ≤ index ∧ index < 9223372036854775808 then some (index, rest)
    else none
  | _, _ => none

/-- Reads steps to the end of a text; each turn reads one. -/
def readSteps? : (turns : Nat) → List Char → Option (List Step)
  | _, [] => some []
  | turns + 1, '.' :: rest =>
    let name := rest.takeWhile isNameChar
    if name.isEmpty then none
    else (readSteps? turns (rest.drop name.length)).map (.child (String.ofList name) :: ·)
  | turns + 1, '[' :: rest => do
    let (index, rest) ← readIndex? rest
    let steps ← readSteps? turns rest
    some (.item index :: steps)
  | _, _ => none

/-- The steps that a text spells. -/
def parse? (text : String) : Option (List Step) :=
  let name := text.toList.takeWhile isNameChar
  if name.isEmpty then none
  else
    (readSteps? text.length (text.toList.drop name.length)).map
      (.child (String.ofList name) :: ·)

/-- The steps that a text spells; failing that, the text itself is the name of a field. -/
def ofText (text : String) : List Step := (parse? text).getD [.child text]

end Keyring.Settings.KeyPath
