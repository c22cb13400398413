import Mathlib.Data.List.Nodup
import Mathlib.Data.List.Perm.Basic
import Keyring.Proofs.Json.Ordered

/-!
# `Keyring.Proofs.Json.Kept`: objects that keep the order of insertion

Objects have their fields in the order of their names, because that is how fields
are put into them. Objects that keep the order in which their fields were put in
are rebuilt with their fields sorted before they are printed (`arranged`). Both
ways the same value is printed. The theorems:

* `Fields.insert_perm`, `Fields.append_perm`: both kinds of objects have the same
  fields after one more is put in.
* `Sorts.put`: so the one stays what the other is when sorted.
* `arranged_object`: what is rebuilt is then the object in order.
-/

set_option autoImplicit false

namespace Keyring.Json

namespace Fields

/-- No name stands twice. -/
def Distinct (fields : Fields) : Prop := fields.Pairwise fun f g => f.1 ≠ g.1

/-- The fields in the order of their names. -/
def byName (fields : Fields) : Fields := fields.mergeSort fun f g => decide (f.1 ≤ g.1)

/-- The fields put one after another into an object that keeps the order of insertion. -/
def collected (fields : Fields) : Fields :=
  fields.foldl (fun (done : Fields) field => done.append field.1 field.2) []

/-- The fields of other names. -/
def without (name : String) (fields : Fields) : Fields := fields.filter fun f => f.1 != name

variable {name : String} {value : Json} {fields other : Fields}

/-- Ascending names are different, since no name is less than itself. The maps that keep the
order of insertion have the names in any order, but they too have no name twice. -/
theorem Ascending.distinct (h : fields.Ascending) : fields.Distinct := by
  refine List.Pairwise.imp ?_ h
  intro f g hlt heq
  exact String.lt_irrefl g.1 (heq ▸ hlt)

/-- Where the name does not occur nothing is left out. This is the case of a name that is
given for the first time. -/
theorem without_of_forall_ne (h : ∀ f ∈ fields, f.1 ≠ name) : fields.without name = fields :=
  List.filter_eq_self.2 fun f hf => bne_iff_ne.2 (h f hf)

/-- The name itself is left out, and if it does not occur again the rest is unchanged. -/
theorem without_cons_self {rest : Fields} (h : ∀ f ∈ rest, f.1 ≠ name) :
    without name ((name, value) :: rest) = rest := by
  rw [without, List.filter_cons_of_neg (by simp)]
  exact without_of_forall_ne h

/-- After a field was put into its place, it stands there with the fields of other names.
Ascending names are needed, so that the same name does not occur a second time further on. -/
theorem insert_perm (h : fields.Ascending) :
    (fields.insert name value).Perm ((name, value) :: fields.without name) := by
  induction fields with
  | nil => exact List.Perm.refl _
  | cons f rest ih =>
      obtain ⟨hfirst, hrest⟩ := List.pairwise_cons.1 h
      rw [insert_cons]
      split
      · rename_i hlt
        -- The new name is less than all of the list, so nothing is left out.
        have hne : ∀ g ∈ f :: rest, g.1 ≠ name := by
          refine List.forall_mem_cons.2 ⟨fun heq => String.lt_irrefl name (heq ▸ hlt), ?_⟩
          intro g hg heq
          exact String.lt_irrefl name (String.lt_trans hlt (heq ▸ hfirst g hg))
        rw [without_of_forall_ne hne]
      · split
        · rename_i heq
          -- The first field has the name, and no other one can have it.
          have hne : ∀ g ∈ rest, g.1 ≠ name := fun g hg hname =>
            String.lt_irrefl f.1 (by have := hfirst g hg; rwa [hname, heq] at this)
          obtain ⟨fname, fvalue⟩ := f
          obtain rfl : name = fname := heq
          rw [without_cons_self hne]
        · rename_i hne
          -- The first field stays, and the new one moves past it.
          have hkept : without name (f :: rest) = f :: without name rest :=
            List.filter_cons_of_pos (bne_iff_ne.2 (Ne.symm hne))
          rw [hkept]
          exact ((ih hrest).cons f).trans (List.Perm.swap ..)

/-- A field that was put into its place is there, and so are the fields of other names. -/
theorem mem_insert_iff (h : fields.Ascending) (f : String × Json) :
    f ∈ fields.insert name value ↔ f = (name, value) ∨ f ∈ fields ∧ f.1 ≠ name := by
  rw [(insert_perm h).mem_iff, List.mem_cons, without, List.mem_filter, bne_iff_ne]

/-- The same if it was put at the end or where its name stood. Up to order the two ways to
put a field in do the same. Names need not ascend here, but they must be distinct, as they
are in every map. -/
theorem append_perm (h : fields.Distinct) :
    (Fields.append name value fields).Perm ((name, value) :: fields.without name) := by
  induction fields with
  | nil => exact List.Perm.refl _
  | cons f rest ih =>
      obtain ⟨hfirst, hrest⟩ := List.pairwise_cons.1 h
      rw [append]
      split
      · rename_i heq
        obtain ⟨fname, fvalue⟩ := f
        obtain rfl : name = fname := heq
        rw [without_cons_self fun g hg => (hfirst g hg).symm]
      · rename_i hne
        -- The first field stays, and the new one moves past it.
        have hkept : without name (f :: rest) = f :: without name rest :=
          List.filter_cons_of_pos (bne_iff_ne.2 (Ne.symm hne))
        rw [hkept]
        exact ((ih hrest).cons f).trans (List.Perm.swap ..)

/-- A field with a new name goes to the end. The induction goes along the list, and no field
of it takes the new value. -/
theorem append_of_forall_ne (h : ∀ f ∈ fields, f.1 ≠ name) :
    Fields.append name value fields = fields ++ [(name, value)] := by
  induction fields with
  | nil => rfl
  | cons f rest ih =>
      obtain ⟨hfirst, hrest⟩ := List.forall_mem_cons.1 h
      rw [append, if_neg hfirst.symm, ih hrest]
      rfl

/-- Fields with different names are collected as they stand: each is new when it is put in,
so it goes to the end. -/
theorem collected_of_distinct (h : fields.Distinct) : fields.collected = fields := by
  have hfold : ∀ (fields done : Fields), (done ++ fields).Pairwise (fun f g => f.1 ≠ g.1) →
      fields.foldl (fun (done : Fields) field => Fields.append field.1 field.2 done) done
        = done ++ fields := by
    intro fields
    induction fields with
    | nil => exact fun done _ => (List.append_nil done).symm
    | cons field rest ih =>
        -- The invariant is that no name of the rest is among those that are done.
        intro done hdistinct
        have hnew : ∀ f ∈ done, f.1 ≠ field.1 := fun f hf =>
          (List.pairwise_append.1 hdistinct).2.2 f hf field List.mem_cons_self
        have hmove : done ++ field :: rest = done ++ [field] ++ rest := by
          rw [List.append_assoc]
          rfl
        rw [hmove] at hdistinct ⊢
        rw [List.foldl_cons, append_of_forall_ne hnew]
        exact ih _ hdistinct
  exact hfold fields [] h

/-- There is one way to sort fields with different names, so whatever order they come in they
are sorted to the ascending one. -/
theorem byName_eq_of_perm (hperm : fields.Perm other) (hother : other.Ascending) :
    fields.byName = other := by
  have hsorted : fields.byName.Pairwise fun f g => f.1 ≤ g.1 := by
    refine (List.pairwise_mergeSort ?_ ?_ fields).imp of_decide_eq_true
    · intro f g k hfg hgk
      exact decide_eq_true (String.le_trans (of_decide_eq_true hfg) (of_decide_eq_true hgk))
    · intro f g
      rw [Bool.or_eq_true]
      exact (String.le_total f.1 g.1).imp decide_eq_true decide_eq_true
  have hall : fields.byName.Perm other := (List.mergeSort_perm fields _).trans hperm
  refine hall.eq_of_pairwise ?_ hsorted (hother.imp fun h => String.not_lt.1 (String.lt_asymm h))
  -- Two fields of one name are the same, as no name stands twice.
  intro f g hf hg hfg hgf
  have hname : f.1 = g.1 := String.le_antisymm hfg hgf
  refine List.inj_on_of_nodup_map (f := Prod.fst) ?_ (hall.subset hf) hg hname
  exact List.pairwise_map.2 hother.distinct

end Fields

/-! ### Rebuilding -/

mutual

/-- The value with every object rebuilt from its fields in the order of their names. -/
def arranged : Json → Json
  | .list items => .list (arrangedItems items)
  | .object fields => .object (Fields.byName (arrangedFields fields)).collected
  | j => j

/-- Rebuilds within each item. -/
def arrangedItems : List Json → List Json
  | [] => []
  | item :: rest => arranged item :: arrangedItems rest

/-- Rebuilds within each field. -/
def arrangedFields : List (String × Json) → Fields
  | [] => []
  | (name, value) :: rest => (name, arranged value) :: arrangedFields rest

end

/-- The text that is signed for a value whose objects keep the order of insertion. -/
def canonicalKept : Json → String
  | .text s => s
  | j => j.arranged.render

/-- The fields in order are those that kept the order of insertion, rebuilt and sorted. -/
structure Sorts (kept fields : Fields) : Prop where
  perm : (arrangedFields kept).Perm fields
  ascending : fields.Ascending

/-- Fields are rebuilt one by one, so a field may be put in before or after the others are
rebuilt. -/
theorem arrangedFields_append (name : String) (value : Json) (kept : Fields) :
    arrangedFields (Fields.append name value kept)
      = Fields.append name value.arranged (arrangedFields kept) := by
  induction kept with
  | nil => rfl
  | cons field rest ih =>
      obtain ⟨fname, fvalue⟩ := field
      rw [Fields.append, arrangedFields, Fields.append]
      split
      · rfl
      · rw [arrangedFields, ih]

variable {kept fields : Fields}

/-- The two kinds of objects begin alike, with no fields. The induction over the fields of an
object starts here. -/
theorem sorts_nil : Sorts [] [] := ⟨List.Perm.refl _, List.Pairwise.nil⟩

/-- One more field keeps the two alike. In the one object it goes to the end or to where its
name stood, in the other to its place, and both times it replaces the field of its name. -/
theorem Sorts.put (h : Sorts kept fields) (name : String) (value : Json) :
    Sorts (Fields.append name value kept) (fields.insert name value.arranged) where
  perm := by
    have hdistinct : (arrangedFields kept).Distinct :=
      (h.perm.pairwise_iff fun hne => Ne.symm hne).2 h.ascending.distinct
    rw [arrangedFields_append]
    refine (Fields.append_perm hdistinct).trans (.trans ?_ (Fields.insert_perm h.ascending).symm)
    exact (h.perm.filter _).cons _
  ascending := h.ascending.insert

/-- What is rebuilt is the object in order: its fields are those of the other one in another
order, and there is one way to sort them. It is kept as an invariant while both kinds of
objects are filled, field by field. -/
theorem Sorts.arranged_object (h : Sorts kept fields) :
    arranged (.object kept) = .object fields := by
  rw [arranged, Fields.byName_eq_of_perm h.perm h.ascending,
    Fields.collected_of_distinct h.ascending.distinct]

end Keyring.Json
