import Keyring.Proofs.Json.Ordered

/-!
# `Keyring.Proofs.Json.Within`: values inside of values

`Within inner outer` says that `inner` stands somewhere inside of `outer`, at any
depth, so that what is said of every value within is said of the whole tree.

* `Within.ordered`: within a value that is in order every value is in order.
* `Within.ascending`: so every object within it has its names ascending.
* `depth_lt_of_mem_items`, `depth_lt_of_mem_fields`: parts are less deep than the whole.
* `depth_object_le`: an object is deeper than its fields by one at most.
-/

set_option autoImplicit false

namespace Keyring.Json

/-- A value stands inside of a value: it is that value, or stands inside of an item or a field. -/
inductive Within : Json → Json → Prop
  | self (j : Json) : Within j j
  | item {inner item : Json} {items : List Json} :
      item ∈ items → Within inner item → Within inner (.list items)
  | field {inner : Json} {field : String × Json} {fields : List (String × Json)} :
      field ∈ fields → Within inner field.2 → Within inner (.object fields)

/-! ### Order -/

/-- Each of some ordered items is in order. The predicate is a conjunction along the list, so
the induction follows the place of the item. -/
theorem OrderedItems.of_mem {items : List Json} (h : OrderedItems items) {item : Json}
    (hitem : item ∈ items) : item.Ordered := by
  induction items with
  | nil => cases hitem
  | cons first rest ih =>
      obtain ⟨hfirst, hrest⟩ := h
      cases hitem with
      | head => exact hfirst
      | tail _ hmem => exact ih hrest hmem

/-- The value of each of some ordered fields is in order. The induction is that of the items,
with the value of each field. -/
theorem OrderedFields.of_mem {fields : List (String × Json)} (h : OrderedFields fields)
    {field : String × Json} (hfield : field ∈ fields) : field.2.Ordered := by
  induction fields with
  | nil => cases hfield
  | cons first rest ih =>
      obtain ⟨hfirst, hrest⟩ := h
      cases hfield with
      | head => exact hfirst
      | tail _ hmem => exact ih hrest hmem

/-- Fields are ordered if the value of each is in order. With `OrderedFields.of_mem` the
recursive predicate and the plain one are the same. -/
theorem orderedFields_of_forall {fields : List (String × Json)}
    (h : ∀ field ∈ fields, field.2.Ordered) : OrderedFields fields := by
  induction fields with
  | nil => trivial
  | cons first rest ih =>
      obtain ⟨hfirst, hrest⟩ := List.forall_mem_cons.1 h
      exact ⟨hfirst, ih hrest⟩

/-- Within a value that is in order every value is in order. Induction on the way inside.
Each step of the way goes to an item or to the value of a field, which the definition of
order covers. -/
theorem Within.ordered {inner outer : Json} (h : Within inner outer) (houter : outer.Ordered) :
    inner.Ordered := by
  induction h with
  | self => exact houter
  | item hitem _ ih => exact ih (OrderedItems.of_mem houter hitem)
  | field hfield _ ih => exact ih (OrderedFields.of_mem houter.2 hfield)

/-- The objects within a value that is in order have their names ascending. The statement on
canonical texts is about all objects within a value, and comes down to this one. -/
theorem Within.ascending {fields : Fields} {outer : Json} (h : Within (.object fields) outer)
    (houter : outer.Ordered) : fields.Ascending :=
  (h.ordered houter).1

/-! ### Floats -/

/-- No float stands inside of the value. -/
def FloatFree (j : Json) : Prop := ∀ x, ¬ Within (.float x) j

/-- Nothing has no float within it. No value of the kind stands within it. -/
@[simp] theorem floatFree_null : FloatFree .null := fun _ => nofun

/-- A truth value has no float within it. No value of the kind stands within it. -/
@[simp] theorem floatFree_bool (b : Bool) : FloatFree (.bool b) := fun _ => nofun

/-- A whole number has no float within it. It is read without rounding. -/
@[simp] theorem floatFree_whole (n : Whole) : FloatFree (.whole n) := fun _ => nofun

/-- A text has no float within it, even if it spells one. -/
@[simp] theorem floatFree_text (s : String) : FloatFree (.text s) := fun _ => nofun

/-- A list has no float within it if none of its items has, and only then. -/
@[simp] theorem floatFree_list {items : List Json} :
    FloatFree (.list items) ↔ ∀ item ∈ items, item.FloatFree := by
  constructor
  · intro h item hitem x hx
    exact h x (.item hitem hx)
  · intro h x hx
    cases hx with
    | item hitem hwithin => exact h _ hitem x hwithin

/-- An object has no float within it if none of its values has, and only then. -/
@[simp] theorem floatFree_object {fields : List (String × Json)} :
    FloatFree (.object fields) ↔ ∀ field ∈ fields, field.2.FloatFree := by
  constructor
  · intro h field hfield x hx
    exact h x (.field hfield hx)
  · intro h x hx
    cases hx with
    | field hfield hwithin => exact h _ hfield x hwithin

/-! ### Depth -/

mutual

/-- How many lists and objects stand inside each other at most. -/
def depth : Json → Nat
  | .list items => depthItems items + 1
  | .object fields => depthFields fields + 1
  | _ => 0

/-- The depth of the deepest item. -/
def depthItems : List Json → Nat
  | [] => 0
  | item :: rest => max (depth item) (depthItems rest)

/-- The depth of the deepest value of a field. -/
def depthFields : List (String × Json) → Nat
  | [] => 0
  | (_, value) :: rest => max (depth value) (depthFields rest)

end

/-- An item is less deep than its list. The recursion through a value and the levels that the
reader has left are both measured by depth. -/
theorem depth_lt_of_mem_items {items : List Json} {item : Json} (h : item ∈ items) :
    item.depth < depth (.list items) := by
  rw [depth]
  induction items with
  | nil => cases h
  | cons first rest ih =>
      rw [depthItems]
      cases h with
      | head => omega
      | tail _ hmem =>
          have := ih hmem
          omega

/-- The value of a field is less deep than its object. With the lemma on items it gives the
reader one level less at each step down. -/
theorem depth_lt_of_mem_fields {fields : List (String × Json)} {field : String × Json}
    (h : field ∈ fields) : field.2.depth < depth (.object fields) := by
  rw [depth]
  induction fields with
  | nil => cases h
  | cons first rest ih =>
      rw [depthFields]
      cases h with
      | head => omega
      | tail _ hmem =>
          have := ih hmem
          omega

/-- An object is deeper by one than its fields at most. It bounds the depth of a record whose
fields are texts and numbers without computing it. -/
theorem depth_object_le {fields : List (String × Json)} {n : Nat}
    (h : ∀ field ∈ fields, field.2.depth ≤ n) : depth (.object fields) ≤ n + 1 := by
  rw [depth]
  refine Nat.succ_le_succ ?_
  induction fields with
  | nil => exact Nat.zero_le n
  | cons first rest ih =>
      obtain ⟨hfirst, hrest⟩ := List.forall_mem_cons.1 h
      exact Nat.max_le.2 ⟨hfirst, ih hrest⟩

end Keyring.Json
