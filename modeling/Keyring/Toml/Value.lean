import Keyring.Toml.Lexeme

/-!
# `Keyring.Toml.Value`: values, keys, and tables within a line

A key is a path of names with points between them. A table knows how it came
to be, since only a table that is implied by the keys below it may be written
to again. Each value keeps its place in the text, for a later fault to point at.
-/

set_option autoImplicit false

namespace Keyring.Toml

/-- How a table came to be. -/
inductive Origin where
  /-- By a heading of its own, or in braces. -/
  | explicit
  /-- By a heading of a table below it. -/
  | heading
  /-- By a dotted key. -/
  | dotted
  deriving DecidableEq, Repr

/-- A value. A field has a name, the place of its value, and the value; a table that is only
implied has the place of the name that implies it. -/
inductive Value where
  | text (s : String)
  | int (n : Int)
  | float (x : Decimal.Real .double)
  | bool (b : Bool)
  /-- A date, a time, or both. -/
  | moment (s : String)
  | list (items : List Value)
  /-- Tables under one name, each with a heading of its own; the latest stands first. -/
  | tables (items : List (List (String × Span × Value)))
  /-- A table in braces. -/
  | braces (origin : Origin) (fields : List (String × Span × Value))
  | table (origin : Origin) (fields : List (String × Span × Value))

/-- A value and its place. -/
abbrev Placed := Span × Value

/-- The fields of a table. -/
abbrev Fields := List (String × Placed)

/-- A name of a key and its place. -/
abbrev Name := String × Span

/-- The word for the kind of a value. -/
def Value.kind : Value → String
  | .text _ => "string"
  | .int _ => "integer"
  | .float _ => "float"
  | .bool _ => "boolean"
  | .moment _ => "datetime"
  | .list _ => "array"
  | .tables _ => "array of tables"
  | .braces .. => "inline table"
  | .table .. => "table"

/-! ### Keys -/

/-- May the character stand in a name without quotes? -/
def isBare (c : Char) : Bool := c.isAlphanum || c == '-' || c == '_'

/-- A name as it is written in a message: bare where it can be, between double quotes where
that takes no escapes but those of tabs, and else between single quotes where these can hold
it. -/
def writtenName (name : String) : String :=
  let chars := name.toList
  let escaped := chars.any fun c => c == '"' || c == '\\'
  if !chars.isEmpty && chars.all isBare then name
  else if escaped && chars.all (fun c => isPlain c && c != '\'') then "'" ++ name ++ "'"
  else "\"" ++ String.ofList (chars.flatMap escape) ++ "\""
where
  /-- A character between double quotes. -/
  escape (c : Char) : List Char :=
    match c with
    | '"' => ['\\', '"']
    | '\\' => ['\\', '\\']
    | '\n' => ['\\', 'n']
    | '\x0d' => ['\\', 'r']
    | '\t' => ['\\', 't']
    | '\x08' => ['\\', 'b']
    | '\x0c' => ['\\', 'f']
    | c => if isPlain c then [c] else '\\' :: 'u' :: hexQuad c.toNat
  /-- A number as four hexadecimal digits. -/
  hexQuad (n : Nat) : List Char :=
    let digits := (Nat.toDigits 16 n).map Char.toUpper
    List.replicate (4 - digits.length) '0' ++ digits

/-- A path as it is shown in a message. -/
def shownPath (path : List String) : String := ".".intercalate path

/-- Reads a name. -/
def readName (text : List Char) : Except Fault (Name × List Char) := do
  let (name, rest) ←
    match text with
    | '"' :: rest => readBasic (rest.length + 1) [] rest
    | '\'' :: rest => readLiteral rest
    | _ =>
      let name := text.takeWhile isBare
      if name.isEmpty then fault text else .ok (String.ofList name, text.drop name.length)
  .ok ((name, ⟨text, rest⟩), rest)

/-- Reads names with points between them; each turn reads one. -/
def readNames : (turns : Nat) → List Char → Except Fault (List Name × List Char)
  | 0, text => fault text
  | turns + 1, text => do
    let (name, rest) ← readName (skipSpaces text)
    let rest := skipSpaces rest
    match rest with
    | '.' :: after =>
      match readNames turns after with
      | .ok (names, rest) => .ok (name :: names, rest)
      | .error f => if f.final then .error f else .ok ([name], rest)
    | _ => .ok ([name], rest)

/-- How many names a key may have. -/
def maxNames : Nat := 80

/-- Reads a key. -/
def readKey (text : List Char) : Except Fault (List Name × List Char) := do
  let (names, rest) ← labelled "key" (readNames (text.length + 1) text)
  if maxNames ≤ names.length then refuse text "recursion limit exceeded"
  else .ok (names, rest)

/-- Passes over the sign between key and value. -/
def skipEquals (text : List Char) : Except Fault (List Char) :=
  expecting [ticked ".", ticked "="] (skipChar '=' text)

/-! ### Putting values under keys -/

/-- Why a value cannot stand under a key. -/
inductive Clash where
  /-- A name stands already, in this table if it is known. -/
  | duplicate (name : String) (table : Option (List String))
  /-- A dotted key leads through a value that is no table. -/
  | throughValue (path : List String) (kind : String)
  deriving DecidableEq, Repr

/-- The wording of a clash. -/
def Clash.message : Clash → String
  | .duplicate name none => "duplicate key " ++ ticked name
  | .duplicate name (some []) => "duplicate key " ++ ticked name ++ " in document root"
  | .duplicate name (some table) =>
    "duplicate key " ++ ticked name ++ " in table " ++ ticked (shownPath table)
  | .throughValue path kind =>
    "dotted key " ++ ticked (shownPath path) ++ " attempted to extend non-table type (" ++ kind ++
      ")"

/-- Alters the value of a name in place, or adds one at the end. -/
def alterField (name : String) (f : Option Placed → Except Clash Placed) :
    Fields → Except Clash Fields
  | [] => do .ok [(name, ← f none)]
  | (other, value) :: rest =>
    if other = name then do .ok ((other, ← f (some value)) :: rest)
    else do .ok ((other, value) :: (← alterField name f rest))

/-- Puts a value under a new name of a table. A dotted key may end only in a table that
such keys made, and a plain one only in another. -/
def putNew (name : String) (value : Placed) (table : Option (List String))
    (isDotted wasDotted : Bool) (fields : Fields) : Except Clash Fields :=
  if isDotted != wasDotted then .error (.duplicate name none)
  else
    alterField name
      (fun old => if old.isSome then .error (.duplicate name table) else .ok value) fields

/-- The names of a key without their places. -/
def namesOf (key : List Name) : List String := key.map (·.1)

/-- The name at the end of a key. -/
def lastName (key : List Name) : String := (key.getLast?.map (·.1)).getD ""

/-- Goes down a table in braces along a dotted key and alters the fields at its end. -/
def descendBraces (full : List Name) (f : Bool → Fields → Except Clash Fields) :
    (names : List Name) → (dotted : Bool) → Fields → Except Clash Fields
  | [], dotted, fields => f dotted fields
  | (name, place) :: rest, _, fields =>
    alterField name (fun old =>
      match old with
      | none => do .ok (place, .braces .dotted (← descendBraces full f rest true []))
      | some (_, .braces .explicit _) => .error (.duplicate name none)
      | some (place, .braces origin inner) => do
        .ok (place, .braces origin (← descendBraces full f rest (origin == .dotted) inner))
      | some (_, value) =>
        .error (.throughValue (namesOf (full.take (full.length - rest.length))) value.kind)) fields

/-- A table in braces of keys and values. -/
def bracesOf : List (List Name × Placed) → Fields → Except Clash Fields
  | [], fields => .ok fields
  | (key, value) :: rest, fields => do
    let path := key.dropLast
    let fields ← descendBraces path
      (fun dotted inner => putNew (lastName key) value none (!path.isEmpty) dotted inner) path
      false fields
    bracesOf rest fields

/-! ### Values -/

/-- Reads parts with commas between them. A part that cannot be read ends the row before
its comma, unless its fault is final; each turn reads one part. -/
def readRow {α : Type} (part : List Char → Except Fault (α × List Char)) :
    (turns : Nat) → List Char → Except Fault (List α × List Char)
  | 0, text => .ok ([], text)
  | turns + 1, text =>
    match part text with
    | .error f => if f.final then .error f else .ok ([], text)
    | .ok (x, rest) =>
      match rest with
      | ',' :: after => do
        match ← readRow part turns after with
        | ([], _) => .ok ([x], rest)
        | (xs, rest) => .ok (x :: xs, rest)
      | _ => .ok ([x], rest)

/-- What a value might have been. -/
def unknown {α : Type} (r : Except Fault α) : Except Fault α :=
  expecting [ticked "\"", ticked "'"] (labelled "string" r)

/-- Reads a word for a truth value. -/
def readBool (word : String) (b : Bool) (text : List Char) : Except Fault (Value × List Char) :=
  unknown
    (if word.toList.isPrefixOf text then .ok (.bool b, text.drop word.length)
    else committed (fault text))

/-- Reads a value, given how many lists and tables may still be opened. -/
def readValue : (levels : Nat) → List Char → Except Fault (Value × List Char)
  | levels, text =>
    match text with
    | [] => fault []
    | c :: rest =>
      if c = '"' ∨ c = '\'' then (readString text).map fun (s, rest) => (.text s, rest)
      else if c = '[' then
        match levels with
        | 0 => committed (refuse text "recursion limit exceeded")
        | levels + 1 => readList (readValue levels) rest
      else if c = '\x7b' then
        match levels with
        | 0 => committed (refuse text "recursion limit exceeded")
        | levels + 1 => readBraces (readValue levels) rest
      else if c = '+' ∨ c = '-' ∨ c.isDigit then
        orTry ((readMoment text).map fun (s, rest) => (.moment s, rest)) fun _ =>
          orTry ((readFloat text).map fun (x, rest) => (.float x, rest)) fun _ =>
            (readInteger text).map fun (n, rest) => (.int n, rest)
      else if c = '_' then
        expecting ["leading digit"] ((readInteger text).map fun (n, rest) => (.int n, rest))
      else if c = '.' then
        expecting ["leading digit"] ((readFloat text).map fun (x, rest) => (.float x, rest))
      else if c = 't' then readBool "true" true text
      else if c = 'f' then readBool "false" false text
      else if c = 'i' ∨ c = 'n' then
        unknown ((readWord text).map fun (x, rest) => (.float x, rest))
      else unknown (fault text)
where
  /-- Reads a list after its opening bracket. -/
  readList (item : List Char → Except Fault (Value × List Char)) (text : List Char) :
      Except Fault (Value × List Char) := do
    let (items, rest) ← readRow (spaced item) (text.length + 1) text
    let rest := if items.isEmpty then rest else if rest.head? = some ',' then rest.tail else rest
    let rest ← committed (skipLines (rest.length + 1) rest)
    let rest ← committed (expecting [ticked "]"] (labelled "array" (skipChar ']' rest)))
    .ok (.list items, rest)
  /-- Reads an item with the blanks and line breaks around it. -/
  spaced (item : List Char → Except Fault (Value × List Char)) (text : List Char) :
      Except Fault (Value × List Char) := do
    let (value, rest) ← item (← skipLines (text.length + 1) text)
    .ok (value, ← skipLines (rest.length + 1) rest)
  /-- Reads a table after its opening brace. -/
  readBraces (item : List Char → Except Fault (Value × List Char)) (text : List Char) :
      Except Fault (Value × List Char) := do
    let (pairs, rest) ← readRow (pair item) (text.length + 1) text
    let rest := skipSpaces rest
    match bracesOf pairs [] with
    | .error clash => committed (refuse text clash.message)
    | .ok fields =>
      let rest ← committed
        (expecting [ticked "\x7d"] (labelled "inline table" (skipChar '\x7d' rest)))
      .ok (.braces .explicit fields, rest)
  /-- Reads a key and its value. -/
  pair (item : List Char → Except Fault (Value × List Char)) (text : List Char) :
      Except Fault ((List Name × Placed) × List Char) := do
    let (key, rest) ← readKey text
    committed do
      let start := skipSpaces (← skipEquals rest)
      let (value, rest) ← item start
      .ok ((key, ⟨start, rest⟩, value), skipSpaces rest)

/-- How many lists and tables may be open at once. -/
def maxLevels : Nat := 79

end Keyring.Toml
