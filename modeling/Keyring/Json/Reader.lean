import Keyring.Json.Lexeme

/-!
# `Keyring.Json.Reader`: reading values

A value is read from a cursor with a number of `levels`: how many lists and
objects may still be opened inside each other. Lists and objects are read by
loops over their items that take the reader of an item as an argument, so the
reader of values recurses on the levels alone.

* `Json.parse`: a whole text as one value.
-/

set_option autoImplicit false

namespace Keyring.Json

open Cursor

/-- Reads a part of a text, given how many lists and objects may still be opened. -/
abbrev Reader (α : Type) := (levels : Nat) → Cursor → Except Fault (α × Cursor)

/-- How many lists and objects may be open at once. -/
def maxLevels : Nat := 127

/-! ### Lists and objects -/

/-- Is there another item before the end of the list? The cursor is then at the
item, else at the closing bracket. -/
def nextItem (first : Bool) (c : Cursor) : Except Fault (Bool × Cursor) :=
  let c := c.skipBlanks
  match c.rest with
  | [] => .error (c.fault .endInList)
  | ']' :: _ => .ok (false, c)
  | ',' :: _ =>
    if first then .ok (true, c)
    else
      let c := c.next.skipBlanks
      match c.rest with
      | [] => .error (c.fault .endInValue)
      | ']' :: _ => .error (c.faultAhead .trailingComma)
      | _ => .ok (true, c)
  | _ => if first then .ok (true, c) else .error (c.faultAhead .expectedItemEnd)

/-- Is there another field before the end of the object? The cursor is then after
the opening quote of its name, else at the closing brace. -/
def nextField (first : Bool) (c : Cursor) : Except Fault (Bool × Cursor) :=
  let c := c.skipBlanks
  match c.rest with
  | [] => .error (c.fault .endInObject)
  | '\x7d' :: _ => .ok (false, c)
  | '"' :: _ => if first then .ok (true, c.next) else .error (c.faultAhead .expectedFieldEnd)
  | ',' :: _ =>
    if first then .error (c.faultAhead .nameNotText)
    else
      let c := c.next.skipBlanks
      match c.rest with
      | [] => .error (c.fault .endInValue)
      | '"' :: _ => .ok (true, c.next)
      | '\x7d' :: _ => .error (c.faultAhead .trailingComma)
      | _ => .error (c.faultAhead .nameNotText)
  | _ => .error (c.faultAhead (if first then .nameNotText else .expectedFieldEnd))

/-- Reads items up to and with the closing bracket; each turn reads one. -/
def readItems {α : Type} (item : Cursor → Except Fault (α × Cursor)) :
    (turns : Nat) → (first : Bool) → Cursor → Except Fault (List α × Cursor)
  | 0, _, c => .error (c.fault .endInList)
  | turns + 1, first, c => do
    let (more, c) ← nextItem first c
    if more then
      let (x, c) ← item c
      let (xs, c) ← readItems item turns false c
      .ok (x :: xs, c)
    else .ok ([], c.next)

/-- Reads fields up to the closing brace into `state`; `field` gets the name and the
cursor after it. -/
def readFields {σ : Type} (field : String → σ → Cursor → Except Fault (σ × Cursor)) :
    (turns : Nat) → (first : Bool) → σ → Cursor → Except Fault (σ × Cursor)
  | 0, _, _, c => .error (c.fault .endInObject)
  | turns + 1, first, state, c => do
    let (more, c) ← nextField first c
    if more then
      let (name, c) ← readText c
      let (state, c) ← field name state c
      readFields field turns false state c
    else .ok (state, c)

/-! ### Values -/

/-- Reads a value, with floats rounded in one way. -/
def readValue (rounding : Rounding) : Reader Json
  | levels, c =>
    let c := c.skipBlanks
    match c.rest with
    | [] => .error (c.fault .endInValue)
    | 'n' :: _ => (c.next.expectWord ['u', 'l', 'l']).map fun c => (.null, c)
    | 't' :: _ => (c.next.expectWord ['r', 'u', 'e']).map fun c => (.bool true, c)
    | 'f' :: _ => (c.next.expectWord ['a', 'l', 's', 'e']).map fun c => (.bool false, c)
    | '"' :: _ => (readText c.next).map fun (s, c) => (.text s, c)
    | '-' :: _ => (readNumber rounding true c.next).map fun (n, c) => (ofNumber n, c)
    | '[' :: _ =>
      match levels with
      | 0 => .error (c.faultAhead .tooDeep)
      | levels + 1 =>
        (readItems (readValue rounding levels) (c.rest.length + 1) true c.next).map
          fun (items, c) => (.list items, c)
    | '\x7b' :: _ =>
      match levels with
      | 0 => .error (c.faultAhead .tooDeep)
      | levels + 1 =>
        (readFields (field (readValue rounding levels)) (c.rest.length + 1) true [] c.next).map
          fun (fields, c) => (.object fields, c.next)
    | x :: _ =>
      if x.isDigit then (readNumber rounding false c).map fun (n, c) => (ofNumber n, c)
      else .error (c.faultAhead .expectedValue)
where
  /-- The value that a number is. -/
  ofNumber : Number → Json
    | .whole n => .whole n
    | .float x => .float x
  /-- Reads the value of a field and puts it into its place. -/
  field (read : Cursor → Except Fault (Json × Cursor)) (name : String) (fields : Fields)
      (c : Cursor) : Except Fault (Fields × Cursor) := do
    let c ← c.expectColon
    let (value, c) ← read c
    .ok (fields.insert name value, c)

/-! ### Passing over values -/

mutual

/-- Passes over a value of any depth; each turn passes one character or more. -/
def skipValue : (turns : Nat) → Cursor → Except Fault Cursor
  | 0, c => .error (c.fault .endInValue)
  | turns + 1, c =>
    let c := c.skipBlanks
    match c.rest with
    | [] => .error (c.fault .endInValue)
    | 'n' :: _ => c.next.expectWord ['u', 'l', 'l']
    | 't' :: _ => c.next.expectWord ['r', 'u', 'e']
    | 'f' :: _ => c.next.expectWord ['a', 'l', 's', 'e']
    | '"' :: _ => skipText c.next
    | '-' :: _ => skipNumber c.next
    | '[' :: _ =>
      let c := c.next.skipBlanks
      match c.rest with
      | [] => .error (c.fault .endInList)
      | ']' :: _ => .ok c.next
      | _ => skipItems turns c
    | '\x7b' :: _ =>
      let c := c.next.skipBlanks
      match c.rest with
      | [] => .error (c.fault .endInObject)
      | '\x7d' :: _ => .ok c.next
      | _ => skipFields turns c
    | x :: _ => if x.isDigit then skipNumber c else .error (c.faultAhead .expectedValue)

/-- Passes over one item and all after it. -/
def skipItems : (turns : Nat) → Cursor → Except Fault Cursor
  | 0, c => .error (c.fault .endInList)
  | turns + 1, c => do
    let c := (← skipValue turns c).skipBlanks
    match c.rest with
    | [] => .error (c.fault .endInList)
    | ',' :: _ => skipItems turns c.next
    | ']' :: _ => .ok c.next
    | _ => .error (c.faultAhead .expectedItemEnd)

/-- Passes over one field and all after it. -/
def skipFields : (turns : Nat) → Cursor → Except Fault Cursor
  | 0, c => .error (c.fault .endInObject)
  | turns + 1, c => do
    let c := c.skipBlanks
    match c.rest with
    | [] => .error (c.fault .endInObject)
    | '"' :: _ =>
      let c ← skipText c.next
      let c ← c.expectColon
      let c := (← skipValue turns c).skipBlanks
      match c.rest with
      | [] => .error (c.fault .endInObject)
      | ',' :: _ => skipFields turns c.next
      | '\x7d' :: _ => .ok c.next
      | _ => .error (c.faultAhead .expectedFieldEnd)
    | _ => .error (c.faultAhead .nameNotText)

end

/-! ### Whole texts -/

/-- Reads a whole text; only blanks may follow. -/
def readAll {α : Type} (read : Reader α) (levels : Nat) (text : String) : Except Fault α := do
  let (x, c) ← read levels (.ofText text)
  let c := c.skipBlanks
  if c.rest.isEmpty then .ok x else .error (c.faultAhead .trailingText)

/-- The value that a text spells. -/
def parse (text : String) : Except Fault Json := readAll (readValue .stepwise) maxLevels text

end Keyring.Json
