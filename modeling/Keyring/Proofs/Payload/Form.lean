import Keyring.Payload
import Keyring.Proofs.Json.Kept
import Keyring.Proofs.Run

/-!
# `Keyring.Proofs.Payload.Form`: the JSON forms of payloads

Items, entries and fields have forms if each of them has one. The theorems:

* `itemsWith_cons_eq_ok_iff`, `entriesWith_cons_eq_ok_iff`: one part after another.
* `ordered_toJson`: the form of a payload has its fields in order, at any depth.
* `toJson_kept`: objects that keep the order of insertion have, rebuilt, the same form.
* `canonicalKept_eq`: so the same text is signed.
-/

set_option autoImplicit false

namespace Keyring.Payload

open Json (Fields Ordered OrderedItems OrderedFields Sorts arranged arrangedItems)

variable {put : Put} {j : Json} {js : List Json} {fields done : Fields}

/-! ### Parts that have forms -/

/-- Items have forms if the first one and the others have. The first fault in the order of
the items is the one that is reported. -/
theorem itemsWith_cons_eq_ok_iff {item : Payload} {rest : List Payload} :
    itemsWith put (item :: rest) = .ok js ↔
      ∃ first, toJsonWith put item = .ok first ∧
        ∃ others, itemsWith put rest = .ok others ∧ first :: others = js := by
  simp only [itemsWith, bind_eq_ok_iff, Except.ok.injEq]

/-- Entries are put among others if the first one can be and the others after it. Its key
must have a text and its value a form. The two ways to put a field are a parameter, so that
both kinds of objects share the lemma. -/
theorem entriesWith_cons_eq_ok_iff {key value : Payload} {rest : List (Payload × Payload)} :
    entriesWith put ((key, value) :: rest) done = .ok fields ↔
      ∃ name, keyText key = .ok name ∧ ∃ form, toJsonWith put value = .ok form ∧
        entriesWith put rest (put name form done) = .ok fields := by
  simp only [entriesWith, bind_eq_ok_iff]

/-- The fields of a record as entries of a map. -/
def asEntries (fields : List (String × Payload)) : List (Payload × Payload) :=
  fields.map fun field => (.text field.1, field.2)

/-- A record has the form of the map with its fields as entries. So what is proved of maps
holds of records. -/
theorem fieldsWith_eq_entriesWith (put : Put) (fields : List (String × Payload)) (done : Fields) :
    fieldsWith put fields done = entriesWith put (asEntries fields) done := by
  induction fields generalizing done with
  | nil => rfl
  | cons field rest ih =>
      rw [fieldsWith, asEntries, List.map_cons, entriesWith]
      show (toJsonWith put field.2 >>= _) = (toJsonWith put field.2 >>= _)
      congr 1
      funext form
      exact ih _

/-- A record has the form of the map with its fields as entries, or both have none. -/
theorem toJson_record (fields : List (String × Payload)) :
    toJson (.record fields) = toJson (.map (asEntries fields)) := by
  rw [toJson, toJson, toJsonWith, toJsonWith, fieldsWith_eq_entriesWith]

/-- A variant has a form if what it holds has one, and it is the object with that as its only
field. -/
theorem toJson_newtypeVariant_eq_ok_iff {name : String} {p : Payload} :
    toJson (.newtypeVariant name p) = .ok j ↔
      ∃ form, p.toJson = .ok form ∧ .object [(name, form)] = j := by
  simp only [toJson, toJsonWith, bind_eq_ok_iff, Except.ok.injEq]

/-- A sequence has a form if its items have, and it is the list of them. -/
theorem toJson_seq_eq_ok_iff {items : List Payload} :
    toJson (.seq items) = .ok j ↔
      ∃ forms, itemsWith Fields.insert items = .ok forms ∧ .list forms = j := by
  simp only [toJson, toJsonWith, bind_eq_ok_iff, Except.ok.injEq]

/-- A map has a form if its entries can be put in one after another, and it is the object
that they give. -/
theorem toJson_map_eq_ok_iff {entries : List (Payload × Payload)} :
    toJson (.map entries) = .ok j ↔
      ∃ fields, entriesWith Fields.insert entries [] = .ok fields ∧ .object fields = j := by
  simp only [toJson, toJsonWith, bind_eq_ok_iff, Except.ok.injEq]

/-- A variant with items is that variant with the list of them. So the lemmas on variants
need one case for three constructors. -/
theorem toJsonWith_tupleVariant (put : Put) (name : String) (items : List Payload) :
    toJsonWith put (.tupleVariant name items)
      = toJsonWith put (.newtypeVariant name (.seq items)) := by
  rw [toJsonWith, toJsonWith, toJsonWith]
  cases itemsWith put items <;> rfl

/-- A variant with fields is that variant with the record of them. The record starts with no
fields, as one that stands alone does. -/
theorem toJsonWith_recordVariant (put : Put) (name : String) (fields : List (String × Payload)) :
    toJsonWith put (.recordVariant name fields)
      = toJsonWith put (.newtypeVariant name (.record fields)) := by
  rw [toJsonWith, toJsonWith, toJsonWith]
  cases fieldsWith put fields [] <;> rfl

/-! ### Order -/

/-- A byte has a whole number as its form, as far as Lean can tell without counting up to the
greatest one. The form is named for the same reason. -/
theorem ofByte_cases (b : UInt8) (j : Json) (h : ofByte b = j) : j = .null ∨ ∃ n, j = .whole n := by
  unfold ofByte at h
  generalize Whole.ofInt? b.toNat = n at h
  cases n with
  | none => exact .inl h.symm
  | some n => exact .inr ⟨n, h.symm⟩

/-- The forms of the members of a list are in order if each form is. -/
theorem orderedItems_map {α : Type} {form : α → Json} (h : ∀ x j, form x = j → j.Ordered)
    (xs : List α) : OrderedItems (xs.map form) := by
  induction xs with
  | nil => trivial
  | cons x rest ih => exact ⟨h x _ rfl, ih⟩

/-- The form of a byte is in order. It is a whole number, and the other case of the
definition is no object either. -/
theorem ordered_of_ofByte (b : UInt8) (j : Json) (h : ofByte b = j) : j.Ordered := by
  rcases ofByte_cases b j h with rfl | ⟨n, rfl⟩ <;> trivial

mutual

/-- The form of a payload has its fields in order, at every depth, because fields are always
put into their places. The recursion is over the payload. Values that were read from a text
have their fields in order as well, so the two can be compared as they are. -/
theorem ordered_toJson : (p : Payload) → {j : Json} → p.toJson = .ok j → j.Ordered
  | .unit, _, h | .none, _, h | .bool _, _, h | .char _, _, h | .text _, _, h
  | .unitVariant _, _, h => by
    rw [← Except.ok.inj h]
    trivial
  | .some p, _, h => ordered_toJson p h
  | .newtype p, _, h => ordered_toJson p h
  | .int n, _, h => by
    rw [toJson, toJsonWith] at h
    cases hn : Whole.ofInt? n with
    | none =>
        rw [hn] at h
        exact absurd h nofun
    | some whole =>
        rw [hn] at h
        rw [← Except.ok.inj h]
        trivial
  | .single x, _, h => by
    rw [← Except.ok.inj h]
    -- A float that has no form is read as nothing.
    cases x with
    | finite x =>
        show Ordered (((x.widen? .double).map Json.float).getD .null)
        cases x.widen? .double <;> trivial
    | _ => trivial
  | .double x, _, h => by
    rw [← Except.ok.inj h]
    cases x <;> trivial
  | .bytes b, _, h => by
    rw [← Except.ok.inj h]
    exact orderedItems_map ordered_of_ofByte b
  | .newtypeVariant name p, _, h => by
    obtain ⟨form, hform, rfl⟩ := toJson_newtypeVariant_eq_ok_iff.1 h
    exact ⟨List.pairwise_singleton _ _, ordered_toJson p hform, trivial⟩
  | .seq items, _, h => by
    obtain ⟨forms, hforms, rfl⟩ := toJson_seq_eq_ok_iff.1 h
    exact orderedItems_itemsWith items hforms
  | .tupleVariant name items, _, h => by
    -- The variant is that of a list.
    rw [toJson, toJsonWith_tupleVariant] at h
    obtain ⟨form, hform, rfl⟩ := toJson_newtypeVariant_eq_ok_iff.1 h
    obtain ⟨forms, hforms, rfl⟩ := toJson_seq_eq_ok_iff.1 hform
    exact ⟨List.pairwise_singleton _ _, orderedItems_itemsWith items hforms, trivial⟩
  | .map entries, _, h => by
    obtain ⟨fields, hfields, rfl⟩ := toJson_map_eq_ok_iff.1 h
    -- The object starts without fields, which is in order.
    exact ordered_entriesWith entries List.Pairwise.nil trivial hfields
  | .record fields, _, h => by
    rw [toJson, toJsonWith, bind_eq_ok_iff] at h
    obtain ⟨forms, hforms, hj⟩ := h
    rw [← Except.ok.inj hj]
    exact ordered_fieldsWith fields List.Pairwise.nil trivial hforms
  | .recordVariant name fields, _, h => by
    rw [toJson, toJsonWith, bind_eq_ok_iff] at h
    obtain ⟨forms, hforms, hj⟩ := h
    rw [← Except.ok.inj hj]
    exact ⟨List.pairwise_singleton _ _, ordered_fieldsWith fields List.Pairwise.nil trivial hforms,
      trivial⟩

/-- The forms of items are in order. It goes with `ordered_toJson`, by recursion on the
payload. -/
theorem orderedItems_itemsWith : (items : List Payload) → {forms : List Json} →
    itemsWith Fields.insert items = .ok forms → OrderedItems forms
  | [], _, h => by
    rw [← Except.ok.inj h]
    trivial
  | item :: rest, _, h => by
    obtain ⟨first, hfirst, others, hothers, rfl⟩ := itemsWith_cons_eq_ok_iff.1 h
    exact ⟨ordered_toJson item hfirst, orderedItems_itemsWith rest hothers⟩

/-- Entries that are put among ordered fields give an object in order. Each entry is put at
its place, so both facts about the fields that are done are kept from entry to entry. -/
theorem ordered_entriesWith : (entries : List (Payload × Payload)) → {done fields : Fields} →
    done.Ascending → OrderedFields done → entriesWith Fields.insert entries done = .ok fields →
    Ordered (.object fields)
  | [], _, _, hascending, hordered, h => by
    rw [← Except.ok.inj h]
    exact ⟨hascending, hordered⟩
  | (key, value) :: rest, _, _, hascending, hordered, h => by
    obtain ⟨name, -, form, hform, hrest⟩ := entriesWith_cons_eq_ok_iff.1 h
    exact ordered_entriesWith rest hascending.insert (hordered.insert (ordered_toJson value hform))
      hrest

/-- The fields of a record that are put among ordered ones give an object in order. -/
theorem ordered_fieldsWith : (parts : List (String × Payload)) → {done fields : Fields} →
    done.Ascending → OrderedFields done → fieldsWith Fields.insert parts done = .ok fields →
    Ordered (.object fields)
  | [], _, _, hascending, hordered, h => by
    rw [← Except.ok.inj h]
    exact ⟨hascending, hordered⟩
  | (name, value) :: rest, _, _, hascending, hordered, h => by
    rw [fieldsWith, bind_eq_ok_iff] at h
    obtain ⟨form, hform, hrest⟩ := h
    exact ordered_fieldsWith rest hascending.insert (hordered.insert (ordered_toJson value hform))
      hrest

end

/-! ### Objects that keep the order of insertion -/

/-- Rebuilding changes no list of forms if it changes none of the forms. -/
theorem arrangedItems_map {α : Type} {form : α → Json} (h : ∀ x j, form x = j → j.arranged = j)
    (xs : List α) : arrangedItems (xs.map form) = xs.map form := by
  induction xs with
  | nil => rfl
  | cons x rest ih => rw [List.map_cons, arrangedItems, ih, h x _ rfl]

/-- Rebuilding does not change the form of a byte. It is no object, and only objects are
rebuilt. -/
theorem arranged_of_ofByte (b : UInt8) (j : Json) (h : ofByte b = j) : j.arranged = j := by
  rcases ofByte_cases b j h with rfl | ⟨n, rfl⟩ <;> rfl

/-- Rebuilding does not change the form of a float of 32 bits. Its form is a number or, where
it has none, the literal for nothing. -/
theorem arranged_ofSingle (x : Decimal.Real .single) : (ofSingle x).arranged = ofSingle x := by
  cases x with
  | finite x =>
      unfold ofSingle
      dsimp only
      cases x.widen? .double <;> rfl
  | _ => rfl

/-- Rebuilding does not change the form of a float of 64 bits. Its form is a number or, where
it has none, the literal for nothing. -/
theorem arranged_ofDouble (x : Decimal.Real .double) : (ofDouble x).arranged = ofDouble x := by
  cases x <;> rfl

/-- An object of one field is rebuilt within that field. There is no order to restore in it. -/
theorem arranged_singleton (name : String) (value : Json) :
    arranged (.object [(name, value)]) = .object [(name, value.arranged)] :=
  (Json.sorts_nil.put name value).arranged_object

/-- A variant is rebuilt as its form if what it holds is. The other two kinds of variants
with content reduce to this one. -/
theorem kept_newtypeVariant {p : Payload} (h : (toJsonWith Fields.append p).map arranged = p.toJson)
    (name : String) : (toJsonWith Fields.append (.newtypeVariant name p)).map arranged
      = toJson (.newtypeVariant name p) := by
  rw [toJson] at h ⊢
  rw [toJsonWith, toJsonWith, ← h]
  cases toJsonWith Fields.append p with
  | error e => rfl
  | ok form => exact congrArg Except.ok (arranged_singleton name form)

/-- A sequence is rebuilt as its form if its items are. A sequence is a list in either kind
of object, so the two ways to put fields differ only within its items. -/
theorem kept_seq {items : List Payload}
    (h : (itemsWith Fields.append items).map arrangedItems = itemsWith Fields.insert items) :
    (toJsonWith Fields.append (.seq items)).map arranged = toJson (.seq items) := by
  rw [toJson, toJsonWith, toJsonWith, ← h]
  cases itemsWith Fields.append items <;> rfl

/-- A record is rebuilt as its form if its fields are. -/
theorem kept_record {fields : List (String × Payload)}
    (h : (fieldsWith Fields.append fields []).map (fun kept => arranged (.object kept))
      = (fieldsWith Fields.insert fields []).map .object) :
    (toJsonWith Fields.append (.record fields)).map arranged = toJson (.record fields) := by
  rw [toJson, toJsonWith, toJsonWith]
  revert h
  cases fieldsWith Fields.append fields [] <;> cases fieldsWith Fields.insert fields [] <;>
    exact fun h => h

mutual

/-- With objects that keep the order of insertion a payload has a form that is rebuilt as its
form. The recursion is over the payload, and the objects are compared while they grow. -/
theorem toJson_kept : (p : Payload) → (toJsonWith Fields.append p).map arranged = p.toJson
  | .unit | .none | .bool _ | .char _ | .text _ | .unitVariant _ => rfl
  | .some p => toJson_kept p
  | .newtype p => toJson_kept p
  | .int n => by
    rw [toJson, toJsonWith, toJsonWith]
    cases Whole.ofInt? n <;> rfl
  | .single x => congrArg Except.ok (arranged_ofSingle x)
  | .double x => congrArg Except.ok (arranged_ofDouble x)
  | .bytes b => by
    rw [toJson, toJsonWith, toJsonWith]
    show Except.ok (Json.list (arrangedItems (b.map ofByte))) = _
    rw [arrangedItems_map arranged_of_ofByte]
  | .newtypeVariant name p => kept_newtypeVariant (toJson_kept p) name
  | .seq items => kept_seq (itemsWith_kept items)
  | .tupleVariant name items => by
    rw [toJson, toJsonWith_tupleVariant, toJsonWith_tupleVariant]
    exact kept_newtypeVariant (kept_seq (itemsWith_kept items)) name
  | .map entries => by
    -- Both objects start without fields, and the first fault is the same in both.
    have h := entriesWith_kept entries Json.sorts_nil
    rw [toJson, toJsonWith, toJsonWith]
    revert h
    cases entriesWith Fields.append entries [] <;> cases entriesWith Fields.insert entries [] <;>
      exact fun h => h
  | .record fields => kept_record (fieldsWith_kept fields Json.sorts_nil)
  | .recordVariant name fields => by
    rw [toJson, toJsonWith_recordVariant, toJsonWith_recordVariant]
    exact kept_newtypeVariant (kept_record (fieldsWith_kept fields Json.sorts_nil)) name

/-- The same for the items of a sequence. -/
theorem itemsWith_kept : (items : List Payload) →
    (itemsWith Fields.append items).map arrangedItems = itemsWith Fields.insert items
  | [] => rfl
  | item :: rest => by
    have hitem := toJson_kept item
    rw [toJson] at hitem
    rw [itemsWith, itemsWith, ← hitem, ← itemsWith_kept rest]
    cases toJsonWith Fields.append item with
    | error e => rfl
    | ok form => cases itemsWith Fields.append rest <;> rfl

/-- The same for the entries of a map: each step puts one field into both objects, and they
stay alike. -/
theorem entriesWith_kept : (entries : List (Payload × Payload)) → {kept done : Fields} →
    Sorts kept done →
    (entriesWith Fields.append entries kept).map (fun fields => arranged (.object fields))
      = (entriesWith Fields.insert entries done).map .object
  | [], _, _, h => congrArg Except.ok h.arranged_object
  | (key, value) :: rest, _, _, h => by
    have hvalue := toJson_kept value
    rw [toJson] at hvalue
    rw [entriesWith, entriesWith, ← hvalue]
    -- A key or a value with a fault ends both in the same way.
    cases keyText key with
    | error e => rfl
    | ok name =>
        cases toJsonWith Fields.append value with
        | error e => rfl
        | ok form => exact entriesWith_kept rest (h.put name form)

/-- The same for the fields of a record. -/
theorem fieldsWith_kept : (parts : List (String × Payload)) → {kept done : Fields} →
    Sorts kept done →
    (fieldsWith Fields.append parts kept).map (fun fields => arranged (.object fields))
      = (fieldsWith Fields.insert parts done).map .object
  | [], _, _, h => congrArg Except.ok h.arranged_object
  | (name, value) :: rest, _, _, h => by
    have hvalue := toJson_kept value
    rw [toJson] at hvalue
    rw [fieldsWith, fieldsWith, ← hvalue]
    cases toJsonWith Fields.append value with
    | error e => rfl
    | ok form => exact fieldsWith_kept rest (h.put name form)

end

/-- The text that is signed for a payload if objects keep the order of insertion. -/
def canonicalKept (p : Payload) : Except Error String :=
  (toJsonWith Fields.append p).map Json.canonicalKept

/-- It is the text that is signed in any case, whichever kind of object the fields were
collected in. Features of the JSON library that change how maps are kept do not change what
is signed. -/
theorem canonicalKept_eq (p : Payload) : p.canonicalKept = p.canonical := by
  have hkept := toJson_kept p
  rw [canonicalKept, canonical, ← hkept]
  cases hform : toJsonWith Fields.append p with
  | error e => rfl
  | ok j =>
      rw [hform] at hkept
      have hordered : j.arranged.Ordered := ordered_toJson p hkept.symm
      refine congrArg Except.ok ?_
      cases j with
      | text s => rfl
      | list items => exact congrArg Json.render (Json.sorted_of_ordered _ hordered).symm
      | object fields => exact congrArg Json.render (Json.sorted_of_ordered _ hordered).symm
      | _ => rfl

end Keyring.Payload
