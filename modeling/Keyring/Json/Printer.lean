import Keyring.Json.Value

/-!
# `Keyring.Json.Printer`: compact JSON text

A value is written without blanks, its fields in the order they stand. In a
text only the quote, the backslash and the controls are escaped.
-/

set_option autoImplicit false

namespace Keyring.Json

/-- The two hexadecimal digits of a control character. -/
def controlDigits (n : Nat) : List Char :=
  [if n < 16 then '0' else '1', Char.ofNat (if n % 16 < 10 then 48 + n % 16 else 87 + n % 16)]

/-- A character inside quotes. -/
def escape (c : Char) : List Char :=
  match c with
  | '"' => ['\\', '"']
  | '\\' => ['\\', '\\']
  | '\x08' => ['\\', 'b']
  | '\x0c' => ['\\', 'f']
  | '\n' => ['\\', 'n']
  | '\r' => ['\\', 'r']
  | '\t' => ['\\', 't']
  | c => if c.toNat < 32 then ['\\', 'u', '0', '0'] ++ controlDigits c.toNat else [c]

/-- A text between quotes. -/
def quoted (s : String) : List Char := '"' :: s.toList.flatMap escape ++ ['"']

/-- The decimal digits of a whole number. -/
def wholeChars (n : Int) : List Char :=
  if n < 0 then '-' :: Nat.toDigits 10 n.natAbs else Nat.toDigits 10 n.natAbs

mutual

/-- A value as characters. -/
def chars : Json → List Char
  | .null => "null".toList
  | .bool true => "true".toList
  | .bool false => "false".toList
  | .whole n => wholeChars n.val
  | .float x => x.chars .canonical
  | .text s => quoted s
  | .list items => '[' :: itemChars items ++ [']']
  | .object fields => '\x7b' :: fieldChars fields ++ ['\x7d']

/-- Items with commas between them. -/
def itemChars : List Json → List Char
  | [] => []
  | [item] => chars item
  | item :: next :: rest => chars item ++ ',' :: itemChars (next :: rest)

/-- Fields with commas between them. -/
def fieldChars : List (String × Json) → List Char
  | [] => []
  | [(name, value)] => quoted name ++ ':' :: chars value
  | (name, value) :: next :: rest =>
    quoted name ++ ':' :: chars value ++ ',' :: fieldChars (next :: rest)

end

/-- A value as a text. -/
def render (j : Json) : String := String.ofList j.chars

/-- An object written from fields that are texts already. -/
def objectChars (fields : List (String × List Char)) : List Char :=
  '\x7b' :: List.intercalate [','] (fields.map fun field => quoted field.1 ++ ':' :: field.2) ++
    ['\x7d']

/-- A list written from items that are texts already. -/
def listChars (items : List (List Char)) : List Char :=
  '[' :: List.intercalate [','] items ++ [']']

end Keyring.Json
