import Keyring.Text.Quoted
import Keyring.Toml.Moment
import Keyring.Toml.Value

/-!
# `Keyring.Toml.Plain`: what values mean

The values of a text without their places. A table whose first field has the
name that is set apart for moments stands for the moment that the text of this
field gives; its other fields count for nothing.

* `Toml.Value.plain`: what a value means, or the fault of a moment in it.
-/

set_option autoImplicit false

namespace Keyring.Toml

/-- A value without places. -/
inductive Plain where
  | text (s : String)
  | int (n : Int)
  | float (x : Decimal.Real .double)
  | bool (b : Bool)
  /-- A date, a time, or both. -/
  | moment (s : String)
  | list (items : List Plain)
  | table (fields : List (String × Plain))

/-- The name that is set apart for moments. -/
def momentName : String := "$__toml_private_datetime"

/-- What a value is as part of a message. -/
def Value.found : Value → String
  | .text s => "string " ++ Text.quote s
  | .int n => "integer `" ++ toString n ++ "`"
  | .float x => "floating point `" ++ x.render .message ++ "`"
  | .bool b => "boolean `" ++ (if b then "true" else "false") ++ "`"
  | .list _ | .tables _ => "sequence"
  | .moment _ | .braces .. | .table .. => "map"

/-- The moment that a value gives. -/
def momentAt (place : Span) (value : Value) : Except Fault String :=
  let broken (reason : String) : Except Fault String := .error ⟨place, true, none, [], some reason⟩
  match value with
  | .text s =>
    match momentOf s with
    | .ok moment => .ok moment
    | .error f => broken f.message
  | value => broken ("invalid type: " ++ value.found ++ ", expected string containing a datetime")

mutual

/-- What a value means. -/
def Value.plain : Value → Except Fault Plain
  | .text s => .ok (.text s)
  | .int n => .ok (.int n)
  | .float x => .ok (.float x)
  | .bool b => .ok (.bool b)
  | .moment s => .ok (.moment s)
  | .list items => (plainItems items).map .list
  | .tables items => (plainTables items).map fun tables => .list tables.reverse
  | .braces _ fields | .table _ fields => plainTable fields

/-- What items mean. -/
def plainItems : List Value → Except Fault (List Plain)
  | [] => .ok []
  | item :: rest => do
    let item ← item.plain
    .ok (item :: (← plainItems rest))

/-- What tables mean; a fault in a later one, which stands before the earlier ones, is told
last. -/
def plainTables : List (List (String × Span × Value)) → Except Fault (List Plain)
  | [] => .ok []
  | fields :: rest => do
    let earlier ← plainTables rest
    .ok ((← plainTable fields) :: earlier)

/-- What a table means. -/
def plainTable : List (String × Span × Value) → Except Fault Plain
  | [] => .ok (.table [])
  | (name, place, value) :: rest => do
    if name = momentName then .ok (.moment (← momentAt place value))
    else
      let value ← value.plain
      .ok (.table ((name, value) :: (← plainFields rest)))

/-- What fields mean. -/
def plainFields : List (String × Span × Value) → Except Fault (List (String × Plain))
  | [] => .ok []
  | (name, _, value) :: rest => do
    let value ← value.plain
    .ok ((name, value) :: (← plainFields rest))

end

end Keyring.Toml
