import Keyring.Payload
import Keyring.Proofs.Json.Ordered

/-!
# `Keyring.Proofs.Payload`: JSON values as payloads

A JSON value is a payload itself, and every payload that has a JSON form has the
same canonical text as that form. The theorems:

* `toJson_ofJson`: the form of a value is the value, with its fields in order.
* `canonical_ofJson`: so its canonical text is that of the value.
* `canonical_of_toJson`: a payload and its form have the same canonical text.
-/

set_option autoImplicit false

namespace Keyring.Payload

open Json (sorted sortedItems sortedFields)

/-- A whole number is in range, so it is made again from its value. -/
theorem ofInt?_val (n : Whole) : Whole.ofInt? n.val = Option.some n :=
  dif_pos ⟨n.low, n.high⟩

mutual

/-- The form of a value is the value, with its fields in order. A value is emitted as a
payload that puts its fields in one after another. The order of the fields does not survive,
but nothing else is lost. -/
theorem toJson_ofJson : (j : Json) → (ofJson j).toJson = .ok j.sorted
  | .null | .bool _ | .float _ | .text _ => rfl
  | .whole n => by
    rw [toJson, ofJson, toJsonWith, ofInt?_val]
    rfl
  | .list items => by
    rw [toJson, ofJson, toJsonWith, itemsWith_ofItems items]
    rfl
  | .object fields => by
    rw [toJson, ofJson, toJsonWith, fieldsWith_ofFields fields []]
    rfl

/-- The items of a list have the forms of the items, in their order. -/
theorem itemsWith_ofItems : (items : List Json) →
    itemsWith Json.Fields.insert (ofItems items) = .ok (sortedItems items)
  | [] => rfl
  | item :: rest => by
    have hitem : toJsonWith Json.Fields.insert (ofJson item) = .ok item.sorted :=
      toJson_ofJson item
    rw [ofItems, itemsWith, hitem, itemsWith_ofItems rest]
    rfl

/-- The fields of an object are put into their places, which is how they are sorted. -/
theorem fieldsWith_ofFields : (fields : List (String × Json)) → (done : Json.Fields) →
    fieldsWith Json.Fields.insert (ofFields fields) done = .ok (sortedFields fields done)
  | [], _ => rfl
  | (name, value) :: rest, done => by
    have hvalue : toJsonWith Json.Fields.insert (ofJson value) = .ok value.sorted :=
      toJson_ofJson value
    rw [ofFields, fieldsWith, hvalue]
    exact fieldsWith_ofFields rest (done.insert name value.sorted)

end

/-- The canonical text of a value that is signed is that of the value, with its fields in any
order. Canonical text does not look at the order, so signing the value and signing the
payload are the same. -/
theorem canonical_ofJson (j : Json) : (ofJson j).canonical = .ok j.canonical := by
  rw [canonical, toJson_ofJson, ← Json.canonical_sorted]
  rfl

/-- A payload has the canonical text of its form. So whatever is signed is signed as a value.
It is used where a request is built from the form and checked against the payload. -/
theorem canonical_of_toJson {payload : Payload} {data : Json} (h : payload.toJson = .ok data) :
    payload.canonical = (ofJson data).canonical := by
  rw [canonical_ofJson, canonical, h]
  rfl

end Keyring.Payload
