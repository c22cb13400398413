import Keyring.Json.Reader

/-!
# `Keyring.Json.Record`: reading records

A record is read from an object, by name and in any order, or from a list, by
position. Its fields are described by one list that fixes their types; a field
may have a fallback. Fields of other names are passed over. A value of the
wrong kind is reported as what it is.
-/

set_option autoImplicit false

namespace Keyring.Json

open Cursor

/-! ### Scalars -/

/-- The fault of a value of another kind than the expected one. A scalar is read
first, so that its own faults come before this one; a list or an object is not. -/
def mismatch (expected : String) (c : Cursor) : Fault :=
  let wrong (found : Found) (c : Cursor) : Fault := c.fault (.wrongType found expected)
  match c.rest with
  | 'n' :: _ => either (c.next.expectWord ['u', 'l', 'l']) (wrong .null)
  | 't' :: _ => either (c.next.expectWord ['r', 'u', 'e']) (wrong (.bool true))
  | 'f' :: _ => either (c.next.expectWord ['a', 'l', 's', 'e']) (wrong (.bool false))
  | '"' :: _ => either (readText c.next) fun (s, c) => wrong (.text s) c
  | '-' :: _ => either (readNumber .stepwise true c.next) fun (n, c) => wrong n.found c
  | '[' :: _ => wrong .list c
  | '\x7b' :: _ => wrong .object c
  | x :: _ =>
    if x.isDigit then either (readNumber .stepwise false c) fun (n, c) => wrong n.found c
    else c.faultAhead .expectedValue
  | [] => c.fault .endInValue
where
  /-- A fault in any case. -/
  either {α : Type} (result : Except Fault α) (f : α → Fault) : Fault :=
    match result with
    | .error fault => fault
    | .ok x => f x

/-- Reads a text that `accept` turns into a value or refuses with a reason. -/
def readTextAs {α : Type} (expected : String) (accept : String → Except String α) : Reader α
  | _, c =>
    let c := c.skipBlanks
    match c.rest with
    | [] => .error (c.fault .endInValue)
    | '"' :: _ => do
      let (s, c) ← readText c.next
      match accept s with
      | .ok x => .ok (x, c)
      | .error reason => .error (c.fault (.refused reason))
    | _ => .error (mismatch expected c)

/-- Reads a text. -/
def readString : Reader String := readTextAs "a string" .ok

/-- Reads a whole number of 64 bits with a sign. -/
def readInt64 : Reader Int
  | _, c =>
    let c := c.skipBlanks
    match c.rest with
    | [] => .error (c.fault .endInValue)
    | '-' :: _ => do accept (← readNumber .stepwise true c.next)
    | x :: _ =>
      if x.isDigit then do accept (← readNumber .stepwise false c) else .error (mismatch "i64" c)
where
  /-- The number, if it is whole and in range. -/
  accept (read : Number × Cursor) : Except Fault (Int × Cursor) :=
    match read.1 with
    | .float x => .error (read.2.fault (.wrongType (.float x) "i64"))
    | .whole n =>
      if n.val < 9223372036854775808 then .ok (n.val, read.2)
      else .error (read.2.fault (.wrongValue (.whole n.val) "i64"))

/-- Reads a list of equal parts. -/
def readListOf {α : Type} (item : Reader α) : Reader (List α)
  | levels, c =>
    let c := c.skipBlanks
    match c.rest with
    | [] => .error (c.fault .endInValue)
    | '[' :: _ =>
      match levels with
      | 0 => .error (c.faultAhead .tooDeep)
      | levels + 1 => readItems (item levels) (c.rest.length + 1) true c.next
    | _ => .error (mismatch "a sequence" c)

/-! ### Fields -/

/-- A field of a record. -/
structure Field (α : Type) where
  name : String
  read : Reader α
  fallback : Option α

/-- The fields of a record in order. -/
inductive Layout : List Type → Type 1
  | done : Layout []
  | field {α : Type} {rest : List Type} (first : Field α) (more : Layout rest) : Layout (α :: rest)

/-- What has been read of each field. -/
def Slots : List Type → Type
  | [] => Unit
  | α :: rest => Option α × Slots rest

/-- The values of all fields. -/
def Row : List Type → Type
  | [] => Unit
  | α :: rest => α × Row rest

/-- Nothing has been read yet. -/
def Slots.empty : (types : List Type) → Slots types
  | [] => ()
  | _ :: rest => (none, empty rest)

/-- The cursor past a closing character, or where one was looked for. -/
def pastClosing (closing : Char) (c : Cursor) : Cursor :=
  let c := c.skipBlanks
  if c.rest.head? = some closing then c.next else c

/-- Reads the value of a named field into its slot. -/
def Layout.readNamed (levels : Nat) (name : String) :
    {types : List Type} → Layout types → Slots types → Cursor →
      Except Fault (Slots types × Cursor)
  | _, .done, slots, c => do
    let c ← c.expectColon
    let c ← skipValue (2 * c.rest.length + 2) c
    .ok (slots, c)
  | _, .field first more, (slot, slots), c =>
    if name = first.name then
      if slot.isSome then .error ((pastClosing '\x7d' c).fault (.duplicateField name))
      else do
        let c ← c.expectColon
        let (x, c) ← first.read levels c
        .ok ((some x, slots), c)
    else do
      let (slots, c) ← more.readNamed levels name slots c
      .ok ((slot, slots), c)

/-- The values of all fields, or the name of the first that is missing. -/
def Layout.collect : {types : List Type} → Layout types → Slots types → Except String (Row types)
  | _, .done, _ => .ok ()
  | _, .field first more, (slot, slots) =>
    match slot <|> first.fallback with
    | none => .error first.name
    | some x => (more.collect slots).map fun row => (x, row)

/-- Reads fields by position up to the closing bracket; `index` counts those read. -/
def Layout.readPositional (expected : String) (levels : Nat) :
    {types : List Type} → Layout types → (index : Nat) → Cursor →
      Except Fault (Row types × Cursor)
  | _, .done, _, c => .ok ((), c)
  | _, .field first more, index, c => do
    let (present, c) ← nextItem (index == 0) c
    if present then
      let (x, c) ← first.read levels c
      let (row, c) ← more.readPositional expected levels (index + 1) c
      .ok ((x, row), c)
    else
      match first.fallback with
      | none => .error (c.next.fault (.wrongLength index expected))
      | some x =>
        let (row, c) ← more.readPositional expected levels (index + 1) c
        .ok ((x, row), c)

/-- Passes over the closing bracket of a list of which enough was read. -/
def closeList (c : Cursor) : Except Fault Cursor :=
  let c := c.skipBlanks
  match c.rest with
  | [] => .error (c.fault .endInList)
  | ']' :: _ => .ok c.next
  | ',' :: _ =>
    let c := c.next.skipBlanks
    .error (c.faultAhead (if c.rest.head? = some ']' then .trailingComma else .trailingText))
  | _ => .error (c.faultAhead .trailingText)

/-- The number of fields. -/
def Layout.size : {types : List Type} → Layout types → Nat
  | _, .done => 0
  | _, .field _ more => more.size + 1

/-- Reads a record of a name and a layout. -/
def readRecord {types : List Type} {α : Type} (name : String) (layout : Layout types)
    (build : Row types → α) : Reader α
  | levels, c =>
    let c := c.skipBlanks
    match c.rest with
    | [] => .error (c.fault .endInValue)
    | '[' :: _ =>
      match levels with
      | 0 => .error (c.faultAhead .tooDeep)
      | levels + 1 => do
        let expected := "struct " ++ name ++ " with " ++ toString layout.size ++ " elements"
        let (row, c) ← layout.readPositional expected levels 0 c.next
        .ok (build row, ← closeList c)
    | '\x7b' :: _ =>
      match levels with
      | 0 => .error (c.faultAhead .tooDeep)
      | levels + 1 => do
        let (slots, c) ← readFields (fun name slots c => layout.readNamed levels name slots c)
          (c.rest.length + 1) true (Slots.empty types) c.next
        match layout.collect slots with
        | .ok row => .ok (build row, c.next)
        | .error missing => .error (c.next.fault (.missingField missing))
    | _ => .error (mismatch ("struct " ++ name) c)

end Keyring.Json
