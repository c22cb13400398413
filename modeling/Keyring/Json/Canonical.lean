import Keyring.Json.Printer

/-!
# `Keyring.Json.Canonical`: one text for each value

The text that is signed for a value: a text stands for itself, and any other
value is written compactly with the names of every object in ascending order
of their UTF-8 bytes.
-/

set_option autoImplicit false

namespace Keyring.Json

mutual

/-- The value with the fields of every object in ascending order; of fields of one
name the last stays. -/
def sorted : Json → Json
  | .list items => .list (sortedItems items)
  | .object fields => .object (sortedFields fields [])
  | j => j

/-- Sorts within each item. -/
def sortedItems : List Json → List Json
  | [] => []
  | item :: rest => sorted item :: sortedItems rest

/-- Sorts within each field and inserts it into those before. -/
def sortedFields : List (String × Json) → Fields → Fields
  | [], done => done
  | (name, value) :: rest, done => sortedFields rest (done.insert name (sorted value))

end

/-- The text that is signed for a value. -/
def canonical : Json → String
  | .text s => s
  | j => j.sorted.render

end Keyring.Json
