import Keyring.Decimal.Notation
import Keyring.Entries

/-!
# `Keyring.Json.Value`: JSON values

A number is a whole number of the range that is kept exactly, or a finite
64-bit float. An object is a list of fields; `Fields.insert` keeps the names
ascending and lets the last value of a name win, so objects built by it have
one form each.
-/

set_option autoImplicit false

namespace Keyring

/-- A whole number from -2^63 up to 2^64 - 1. -/
structure Whole where
  val : Int
  low : -9223372036854775808 ≤ val
  high : val < 18446744073709551616
  deriving DecidableEq, Repr

/-- The whole number of a value in range. -/
def Whole.ofInt? (n : Int) : Option Whole :=
  if h : -9223372036854775808 ≤ n ∧ n < 18446744073709551616 then some ⟨n, h.1, h.2⟩ else none

/-- A JSON value. -/
inductive Json where
  | null
  | bool (b : Bool)
  | whole (n : Whole)
  | float (x : Decimal.Binary .double)
  | text (s : String)
  | list (items : List Json)
  | object (fields : List (String × Json))
  deriving Repr

namespace Json

/-- The fields of an object. -/
abbrev Fields := List (String × Json)

/-- Puts a field into its place by name; an earlier value of the name is dropped. -/
def Fields.insert (name : String) (value : Json) (fields : Fields) : Fields :=
  Entries.insert name value fields

/-- Puts a field at the end, or where its name stands already. -/
def Fields.append (name : String) (value : Json) : Fields → Fields
  | [] => [(name, value)]
  | field :: rest =>
    if name = field.1 then (name, value) :: rest else field :: Fields.append name value rest

end Json
end Keyring
