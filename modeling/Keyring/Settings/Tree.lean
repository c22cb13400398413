import Keyring.Decimal.Real
import Keyring.Json.Value
import Keyring.Text.Quoted

/-!
# `Keyring.Settings.Tree`: layered values

The sources of settings are laid one over the other. A table that comes later
is merged into the one that stands there, field by field and at every depth;
any other value takes the place of what stood there. Names of fields are kept
in lower case. Each value remembers the source it came from; a table that was
merged comes from none.

* `Tree.put`: a value laid over a field.
* `Tree.set`: a value laid over the place that a path of steps leads to.
-/

set_option autoImplicit false

namespace Keyring.Settings

/-- A value without parts. -/
inductive Scalar where
  | null
  | bool (b : Bool)
  | int (n : Int)
  | float (x : Decimal.Real .double)
  | text (s : String)
  deriving DecidableEq, Repr

/-- What a scalar is as part of a message, where `integer` is the word for whole
numbers and `style` says how floats are written. -/
def Scalar.describe (integer : String) (style : Decimal.Style) : Scalar → String
  | .null => "unit value"
  | .bool b => "boolean `" ++ (if b then "true" else "false") ++ "`"
  | .int n => integer ++ " `" ++ toString n ++ "`"
  | .float x => "floating point `" ++ x.render style ++ "`"
  | .text s => "string " ++ Text.quote s

/-- A scalar as a text, if it stands for one. -/
def Scalar.toText? : Scalar → Option String
  | .null => none
  | .bool b => some (if b then "true" else "false")
  | .int n => some (toString n)
  | .float x => some (x.render .bare)
  | .text s => some s

/-- A value of a source. -/
inductive Tree where
  | scalar (origin : Option String) (x : Scalar)
  | list (origin : Option String) (items : List Tree)
  | table (origin : Option String) (fields : List (String × Tree))

/-- A name in lower case. The Kelvin sign is the one character beyond ASCII whose lower
case is an ASCII letter. -/
def foldName (name : String) : String := name.map fun c => if c = '\u212a' then 'k' else c.toLower

/-- A step from a value to a part of it. A negative index counts from the end. -/
inductive Step where
  | child (name : String)
  | item (index : Int)
  deriving DecidableEq, Repr

namespace Tree

/-- The fields of a table. -/
abbrev Fields := List (String × Tree)

/-- No value. -/
def nothing : Tree := .scalar none .null

/-- The value of a field. -/
def field? (name : String) : Tree → Option Tree
  | .table _ fields => fields.lookup name
  | _ => none

/-! ### Values of JSON texts -/

mutual

/-- A JSON value from a source. Whole numbers beyond 63 bits are held as floats. -/
def ofJson (origin : String) : Json → Tree
  | .null => .scalar origin .null
  | .bool b => .scalar origin (.bool b)
  | .whole n =>
    .scalar origin
      (if n.val < 9223372036854775808 then .int n.val
        else .float (.nearest .double false n.val.toNat 0))
  | .float x => .scalar origin (.float (.finite x))
  | .text s => .scalar origin (.text s)
  | .list items => .list origin (ofItems origin items)
  | .object fields => .table origin (ofFields origin fields)

/-- JSON values from a source. -/
def ofItems (origin : String) : List Json → List Tree
  | [] => []
  | item :: rest => ofJson origin item :: ofItems origin rest

/-- JSON fields from a source. -/
def ofFields (origin : String) : List (String × Json) → Fields
  | [] => []
  | (name, value) :: rest => (name, ofJson origin value) :: ofFields origin rest

end

/-! ### Laying values over others -/

/-- Alters the field of a name, which may be missing. -/
def alterField (name : String) (f : Option Tree → Tree) : Fields → Fields
  | [] => [(foldName name, f none)]
  | (other, value) :: rest =>
    if other = foldName name then (other, f (some value)) :: rest
    else (other, value) :: alterField name f rest

/-- Alters a field of a table. A value that is no table gives way to one. -/
def alter (name : String) (f : Option Tree → Tree) : Tree → Tree
  | .table origin fields => .table origin (alterField name f fields)
  | _ => .table none (alterField name f [])

mutual

/-- What stands where a value is laid over another one or over nothing. -/
def onto : Tree → Option Tree → Tree
  | .table _ fields, old => ontoAll fields (old.getD (.table none []))
  | .scalar origin x, _ => .scalar origin x
  | .list origin items, _ => .list origin items

/-- Lays fields over a value, one by one. -/
def ontoAll : Fields → Tree → Tree
  | [], old => old
  | (name, value) :: rest, old => ontoAll rest (old.alter name (onto value))

end

/-- Lays a value over a field. -/
def put (name : String) (value old : Tree) : Tree := old.alter name value.onto

/-- Alters an item of a list, which grows as far as that. A value that is no list gives
way to one. -/
def alterItem (index : Int) (f : Tree → Tree) (old : Tree) : Tree :=
  let (origin, items) :=
    match old with
    | .list origin items => (origin, items)
    | _ => (none, [])
  let place := if index < 0 then items.length - index.natAbs else index.toNat
  -- The list grows by nothings up to the place that is altered.
  let items := items ++ List.replicate (place + 1 - items.length) nothing
  .list origin (items.modify place f)

/-- Lays a value over the place that steps lead to. -/
def set (value : Tree) : List Step → Tree → Tree
  | [], _ => value
  | [.child name], old => put name value old
  | .child name :: rest, old => old.alter name fun part => set value rest (part.getD nothing)
  | .item index :: rest, old => old.alterItem index (set value rest)

end Tree
end Keyring.Settings
