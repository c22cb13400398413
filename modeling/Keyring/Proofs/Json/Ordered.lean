import Keyring.Json.Canonical

/-!
# `Keyring.Proofs.Json.Ordered`: values with their fields in order

The fields of an object are looked up by name, so their order is no part of a
value, and values are compared in the one form where all names ascend. The
theorems:

* `ordered_sorted`: sorting gives that form.
* `sorted_of_ordered`: a value that has it already stays as it is.
* `canonical_sorted`: sorting keeps the canonical text.
-/

set_option autoImplicit false

namespace Keyring.Json

/-! ### Ascending names -/

/-- The names of fields ascend, so that no two are the same. -/
def Fields.Ascending (fields : Fields) : Prop := fields.Pairwise fun f g => f.1 < g.1

mutual

/-- The names of every object within a value ascend. -/
def Ordered : Json → Prop
  | .list items => OrderedItems items
  | .object fields => Fields.Ascending fields ∧ OrderedFields fields
  | _ => True

/-- The names of every object within items ascend. -/
def OrderedItems : List Json → Prop
  | [] => True
  | item :: rest => Ordered item ∧ OrderedItems rest

/-- The names of every object within the values of fields ascend. -/
def OrderedFields : List (String × Json) → Prop
  | [] => True
  | (_, value) :: rest => Ordered value ∧ OrderedFields rest

end

/-! ### One field -/

namespace Fields

variable {name : String} {value : Json} {fields : Fields}

/-- Where a field goes depends on the first field alone: in front of a greater name, in the
place of the same name, and else further on. The proofs about fields go by these three cases. -/
theorem insert_cons (f : String × Json) (rest : Fields) :
    Fields.insert name value (f :: rest) =
      if name < f.1 then (name, value) :: f :: rest
      else if name = f.1 then (name, value) :: rest
      else f :: Fields.insert name value rest :=
  rfl

/-- A field that was put into its place is the new one or an old one. Induction on the fields
it is put among. -/
theorem eq_or_mem_of_mem_insert {f : String × Json} (h : f ∈ fields.insert name value) :
    f = (name, value) ∨ f ∈ fields := by
  induction fields with
  | nil => exact .inl (List.mem_singleton.1 h)
  | cons g rest ih =>
      rw [insert_cons] at h
      split at h
      · exact List.mem_cons.1 h
      · split at h
        · exact (List.mem_cons.1 h).imp_right (List.mem_cons_of_mem g)
        · rcases List.mem_cons.1 h with rfl | hrest
          · exact .inr (List.mem_cons_self ..)
          · exact (ih hrest).imp_right (List.mem_cons_of_mem g)

/-- To put a field into its place keeps the names ascending: it goes in front of the first
greater name and takes the place of its own. -/
theorem Ascending.insert (h : fields.Ascending) : (fields.insert name value).Ascending := by
  induction fields with
  | nil => exact List.pairwise_singleton _ _
  | cons f rest ih =>
      obtain ⟨hfirst, hrest⟩ := List.pairwise_cons.1 h
      rw [Fields.insert_cons]
      split
      · rename_i hlt
        refine List.pairwise_cons.2 ⟨fun g hg => ?_, h⟩
        -- The new name stands in front of a greater one, and the others are greater still.
        rcases List.mem_cons.1 hg with rfl | hmem
        · exact hlt
        · exact String.lt_trans hlt (hfirst g hmem)
      · split
        · rename_i heq
          refine List.pairwise_cons.2 ⟨fun g hg => ?_, hrest⟩
          show name < g.1
          rw [heq]
          exact hfirst g hg
        · rename_i hnlt hne
          refine List.pairwise_cons.2 ⟨fun g hg => ?_, ih hrest⟩
          -- What follows is the new field or one of the old ones, and the new name is greater
          -- too.
          rcases eq_or_mem_of_mem_insert hg with rfl | hmem
          · exact String.not_le.1 fun hle => hne (String.le_antisymm hle (String.not_lt.1 hnlt))
          · exact hfirst g hmem

/-- A field with a name after all others goes to the end. So fields that come in ascending
order are kept in the order in which they came. -/
theorem insert_of_last (h : ∀ f ∈ fields, f.1 < name) :
    fields.insert name value = fields ++ [(name, value)] := by
  induction fields with
  | nil => rfl
  | cons f rest ih =>
      obtain ⟨hfirst, hrest⟩ := List.forall_mem_cons.1 h
      have hne : name ≠ f.1 := fun heq => String.lt_irrefl name (heq ▸ hfirst)
      rw [insert_cons, if_neg (String.lt_asymm hfirst), if_neg hne, ih hrest]
      rfl

/-- A field goes in front of a greater name. It is the first of the three ways in which a
name compares with the first of the list. -/
theorem insert_cons_of_lt {next : String} (h : name < next) (other : Json) (rest : Fields) :
    insert name value ((next, other) :: rest) = (name, value) :: (next, other) :: rest :=
  if_pos h

/-- A field takes the place of its own name. The value that was there is lost, which is why
the last one of a name counts. -/
theorem insert_cons_self (other : Json) (rest : Fields) :
    insert name value ((name, other) :: rest) = (name, value) :: rest := by
  rw [insert_cons, if_neg (String.lt_irrefl name), if_pos rfl]

/-- A field goes on behind a lesser name. The rest of the list is treated in the same way. -/
theorem insert_cons_of_gt {next : String} (h : next < name) (other : Json) (rest : Fields) :
    insert name value ((next, other) :: rest) = (next, other) :: insert name value rest := by
  have hne : name ≠ next := fun heq => String.lt_irrefl name (heq ▸ h)
  rw [insert_cons, if_neg (String.lt_asymm h), if_neg hne]

/-- Of two values that are put in for one name the later one stays, wherever the name stands
among the others. -/
theorem insert_insert (fields : Fields) (name : String) (earlier later : Json) :
    (fields.insert name earlier).insert name later = fields.insert name later := by
  induction fields with
  | nil => exact insert_cons_self earlier []
  | cons f rest ih =>
      obtain ⟨fname, x⟩ := f
      rcases Std.lt_trichotomy name fname with hlt | rfl | hgt
      · simp only [insert_cons_of_lt hlt, insert_cons_self]
      · simp only [insert_cons_self]
      · simp only [insert_cons_of_gt hgt, ih]

/-- The order in which two names are put in does not matter. It is enough to compare them in
one order, because the statement is symmetric. -/
theorem insert_comm (fields : Fields) {a b : String} (hne : a ≠ b) (v w : Json) :
    (fields.insert a v).insert b w = (fields.insert b w).insert a v := by
  have hcomm : ∀ {a b : String}, a < b → ∀ v w : Json,
      (fields.insert a v).insert b w = (fields.insert b w).insert a v := by
    intro a b h v w
    induction fields with
    | nil =>
        show insert b w [(a, v)] = insert a v [(b, w)]
        simp only [insert_cons_of_gt h, insert_cons_of_lt h]
        rfl
    | cons f rest ih =>
        obtain ⟨fname, x⟩ := f
        rcases Std.lt_trichotomy a fname with hlt | rfl | hgt
        · simp only [insert_cons_of_lt hlt, insert_cons_of_gt h]
          -- Whatever stands first after the greater name is put in, the lesser goes before it.
          rcases Std.lt_trichotomy b fname with hb | rfl | hb
          · simp only [insert_cons_of_lt hb, insert_cons_of_lt h]
          · simp only [insert_cons_self, insert_cons_of_lt h]
          · simp only [insert_cons_of_gt hb, insert_cons_of_lt hlt]
        · simp only [insert_cons_self, insert_cons_of_gt h]
        · have hb := String.lt_trans hgt h
          simp only [insert_cons_of_gt hgt, insert_cons_of_gt hb, ih]
  rcases Std.lt_trichotomy a b with hlt | heq | hgt
  · exact hcomm hlt v w
  · exact absurd heq hne
  · exact (hcomm hgt w v).symm

end Fields

/-- Values stay ordered when an ordered one is put among them. Only the value matters here,
whatever the place it takes. -/
theorem OrderedFields.insert {name : String} {value : Json} {fields : Fields}
    (hfields : OrderedFields fields) (hvalue : value.Ordered) :
    OrderedFields (fields.insert name value) := by
  induction fields with
  | nil => exact ⟨hvalue, trivial⟩
  | cons f rest ih =>
      obtain ⟨hfirst, hrest⟩ := hfields
      rw [Fields.insert_cons]
      split
      · exact ⟨hvalue, hfirst, hrest⟩
      · split
        · exact ⟨hvalue, hrest⟩
        · exact ⟨hfirst, ih hrest⟩

/-! ### Sorting -/

mutual

/-- Sorting puts every object in order, at every depth. The recursion is that of sorting,
with one case for values, lists and fields each. The printer relies on it and prints the
fields as they come. -/
theorem ordered_sorted : (j : Json) → j.sorted.Ordered
  | .list items => orderedItems_sorted items
  | .object fields => orderedFields_sorted fields [] List.Pairwise.nil trivial
  | .null | .bool _ | .whole _ | .float _ | .text _ => trivial

/-- The items of a sorted list are in order, each for itself. A list keeps the order of its
items; it is what they hold that is sorted. -/
theorem orderedItems_sorted : (items : List Json) → OrderedItems (sortedItems items)
  | [] => trivial
  | item :: rest => ⟨ordered_sorted item, orderedItems_sorted rest⟩

/-- Fields that are put one after another among ordered ones are in order in the end. -/
theorem orderedFields_sorted : (fields : List (String × Json)) → (done : Fields) →
    done.Ascending → OrderedFields done →
    (sortedFields fields done).Ascending ∧ OrderedFields (sortedFields fields done)
  | [], _, hascending, hordered => ⟨hascending, hordered⟩
  | (name, value) :: rest, done, hascending, hordered =>
    orderedFields_sorted rest (done.insert name value.sorted) hascending.insert
      (hordered.insert (ordered_sorted value))

end

mutual

/-- A value that is in order is not changed by sorting. The recursion is that of sorting. -/
theorem sorted_of_ordered : (j : Json) → j.Ordered → j.sorted = j
  | .list items, h => congrArg Json.list (sortedItems_of_ordered items h)
  | .object fields, h => congrArg Json.object (sortedFields_of_ordered fields [] h.1 h.2)
  | .null, _ | .bool _, _ | .whole _, _ | .float _, _ | .text _, _ => rfl

/-- Items that are in order are not changed, each for itself. It goes with the same statement
for values, by recursion on both. -/
theorem sortedItems_of_ordered : (items : List Json) → OrderedItems items →
    sortedItems items = items
  | [], _ => rfl
  | item :: rest, h => by
    rw [sortedItems, sorted_of_ordered item h.1, sortedItems_of_ordered rest h.2]

/-- Fields that are in order are put one behind the other, since each has a name after all
that were put in before it. -/
theorem sortedFields_of_ordered : (fields : List (String × Json)) → (done : Fields) →
    (done ++ fields).Pairwise (fun f g => f.1 < g.1) → OrderedFields fields →
    sortedFields fields done = done ++ fields
  | [], done, _, _ => (List.append_nil done).symm
  | (name, value) :: rest, done, hascending, h => by
    have hlast : ∀ f ∈ done, f.1 < name := fun f hf =>
      (List.pairwise_append.1 hascending).2.2 f hf _ (List.mem_cons_self ..)
    have hrest : done ++ (name, value) :: rest = done ++ [(name, value)] ++ rest := by
      rw [List.append_assoc]
      rfl
    rw [hrest] at hascending ⊢
    rw [sortedFields, sorted_of_ordered value h.1, Fields.insert_of_last hlast,
      sortedFields_of_ordered rest _ hascending h.2]

end

/-- To sort twice is to sort once. So a canonical text does not depend on how often a value
passes through the printer. -/
theorem sorted_sorted (j : Json) : j.sorted.sorted = j.sorted :=
  sorted_of_ordered j.sorted (ordered_sorted j)

/-- Sorting keeps the canonical text, because printing a value canonically sorts it anyway.
So equality of canonical texts may be asked for values that are in order. -/
theorem canonical_sorted (j : Json) : j.sorted.canonical = j.canonical := by
  cases j with
  | text s => rfl
  | list items => exact congrArg render (sorted_sorted (.list items))
  | object fields => exact congrArg render (sorted_sorted (.object fields))
  | _ => rfl

end Keyring.Json
