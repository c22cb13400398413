import Keyring.Proofs.Bytes.Order
import Keyring.Proofs.Binding
import Keyring.Proofs.Json.Within
import Keyring.Proofs.Key.Signing
import Keyring.Proofs.Payload.Form

/-!
# `Keyring.Proofs.Payload.Reordered`: the order of emission does not matter

A payload emits the fields of its records and the entries of its maps in some
order. The canonical text is the same for every order, as long as no two entries
of a map have the same key text; of those that have, the last one counts.

* `Inside`: what is done to a payload at any depth, step by step.
* `Inside.refines`: if it keeps the JSON form there, it keeps that of the whole.
* `Shuffled`, `Overwritten`: the two things that are done here.
* `canonical_reordered`: what they do to canonical texts and signatures, and how
  the names in a canonical text are ordered.
-/

set_option autoImplicit false

namespace Keyring.Payload

open Json (Fields Within)

/-! ### Steps inside of payloads -/

/-- A payload is turned into another by steps, each of which is one of `R` at some place inside of
it, at any depth. -/
inductive Inside (R : Payload → Payload → Prop) : Payload → Payload → Prop
  | step {p q : Payload} : R p q → Inside R p q
  | refl (p : Payload) : Inside R p p
  | trans {p q r : Payload} : Inside R p q → Inside R q r → Inside R p r
  | some {p q : Payload} : Inside R p q → Inside R (.some p) (.some q)
  | newtype {p q : Payload} : Inside R p q → Inside R (.newtype p) (.newtype q)
  | newtypeVariant (name : String) {p q : Payload} :
      Inside R p q → Inside R (.newtypeVariant name p) (.newtypeVariant name q)
  | item (before after : List Payload) {p q : Payload} : Inside R p q →
      Inside R (.seq (before ++ p :: after)) (.seq (before ++ q :: after))
  | variantItem (name : String) (before after : List Payload) {p q : Payload} : Inside R p q →
      Inside R (.tupleVariant name (before ++ p :: after))
        (.tupleVariant name (before ++ q :: after))
  | key (before after : List (Payload × Payload)) (value : Payload) {p q : Payload} :
      Inside R p q →
      Inside R (.map (before ++ (p, value) :: after)) (.map (before ++ (q, value) :: after))
  | value (before after : List (Payload × Payload)) (key : Payload) {p q : Payload} :
      Inside R p q →
      Inside R (.map (before ++ (key, p) :: after)) (.map (before ++ (key, q) :: after))
  | field (before after : List (String × Payload)) (name : String) {p q : Payload} :
      Inside R p q →
      Inside R (.record (before ++ (name, p) :: after)) (.record (before ++ (name, q) :: after))
  | variantField (variant : String) (before after : List (String × Payload)) (name : String)
      {p q : Payload} : Inside R p q →
      Inside R (.recordVariant variant (before ++ (name, p) :: after))
        (.recordVariant variant (before ++ (name, q) :: after))

/-- One payload can stand for another: it is the same key, and has the same form if that has one. -/
structure Refines (p q : Payload) : Prop where
  key : keyText p = keyText q
  form : ∀ j, p.toJson = .ok j → q.toJson = .ok j

variable {p q : Payload} {forms : List Json} {done fields : Fields}

/-- One item may be exchanged for another that has the same form. Induction on the items
before it. -/
theorem itemsWith_exchange (h : Refines p q) (before after : List Payload) {forms : List Json}
    (hforms : itemsWith Fields.insert (before ++ p :: after) = .ok forms) :
    itemsWith Fields.insert (before ++ q :: after) = .ok forms := by
  induction before generalizing forms with
  | nil =>
      obtain ⟨first, hfirst, hothers⟩ := itemsWith_cons_eq_ok_iff.1 hforms
      exact itemsWith_cons_eq_ok_iff.2 ⟨first, h.form first hfirst, hothers⟩
  | cons item before ih =>
      obtain ⟨first, hfirst, others, hothers, rfl⟩ := itemsWith_cons_eq_ok_iff.1 hforms
      exact itemsWith_cons_eq_ok_iff.2 ⟨first, hfirst, others, ih hothers, rfl⟩

/-- One key with its value may be exchanged for another with the same key text and the same
form. -/
theorem entriesWith_exchange {key key' : Payload} (hkey : keyText key = keyText key')
    (h : ∀ j, p.toJson = .ok j → q.toJson = .ok j) (before after : List (Payload × Payload))
    (hfields : entriesWith Fields.insert (before ++ (key, p) :: after) done = .ok fields) :
    entriesWith Fields.insert (before ++ (key', q) :: after) done = .ok fields := by
  induction before generalizing done with
  | nil =>
      obtain ⟨name, hname, form, hform, hrest⟩ := entriesWith_cons_eq_ok_iff.1 hfields
      exact entriesWith_cons_eq_ok_iff.2 ⟨name, hkey ▸ hname, form, h form hform, hrest⟩
  | cons entry before ih =>
      obtain ⟨name, hname, form, hform, hrest⟩ := entriesWith_cons_eq_ok_iff.1 hfields
      exact entriesWith_cons_eq_ok_iff.2 ⟨name, hname, form, hform, ih hrest⟩

/-- A payload can stand for itself. -/
theorem Refines.refl (p : Payload) : Refines p p := ⟨rfl, fun _ h => h⟩

/-- What can stand for a payload that can stand for another can stand for that one. -/
theorem Refines.trans {r : Payload} (hpq : Refines p q) (hqr : Refines q r) : Refines p r :=
  ⟨hpq.key.trans hqr.key, fun j h => hqr.form j (hpq.form j h)⟩

/-- A variant can stand for another if what it holds can. The name of the variant is the same
on both sides. -/
theorem Refines.newtypeVariant (h : Refines p q) (name : String) :
    Refines (.newtypeVariant name p) (.newtypeVariant name q) := by
  refine ⟨rfl, fun j hj => ?_⟩
  obtain ⟨form, hform, hobject⟩ := toJson_newtypeVariant_eq_ok_iff.1 hj
  exact toJson_newtypeVariant_eq_ok_iff.2 ⟨form, h.form form hform, hobject⟩

/-- A sequence can stand for another that differs in one item, if that item can. -/
theorem Refines.seq (h : Refines p q) (before after : List Payload) :
    Refines (.seq (before ++ p :: after)) (.seq (before ++ q :: after)) := by
  refine ⟨rfl, fun j hj => ?_⟩
  obtain ⟨forms, hforms, hlist⟩ := toJson_seq_eq_ok_iff.1 hj
  exact toJson_seq_eq_ok_iff.2 ⟨forms, itemsWith_exchange h before after hforms, hlist⟩

/-- A map can stand for another that differs in one entry, if the key texts are the same and
the value can. -/
theorem Refines.entry {key key' : Payload} (hkey : keyText key = keyText key')
    (h : ∀ j, p.toJson = .ok j → q.toJson = .ok j) (before after : List (Payload × Payload)) :
    Refines (.map (before ++ (key, p) :: after)) (.map (before ++ (key', q) :: after)) := by
  refine ⟨rfl, fun j hj => ?_⟩
  obtain ⟨fields, hfields, hobject⟩ := toJson_map_eq_ok_iff.1 hj
  exact toJson_map_eq_ok_iff.2
    ⟨fields, entriesWith_exchange hkey h before after hfields, hobject⟩

/-- A record can stand for another if the map of its fields can. -/
theorem Refines.record {parts parts' : List (String × Payload)}
    (h : Refines (.map (asEntries parts)) (.map (asEntries parts'))) :
    Refines (.record parts) (.record parts') := by
  refine ⟨rfl, fun j hj => ?_⟩
  rw [toJson_record] at hj ⊢
  exact h.form j hj

/-- The entries of a record are cut where its fields are. It brings a change within a record
to the form that the lemma on maps asks for. -/
theorem asEntries_append_cons (before after : List (String × Payload)) (name : String)
    (p : Payload) : asEntries (before ++ (name, p) :: after)
      = asEntries before ++ (.text name, p) :: asEntries after := by
  rw [asEntries, List.map_append, List.map_cons]
  rfl

/-- A record can stand for another that differs in one field, if that field can. -/
theorem Refines.field (h : Refines p q) (before after : List (String × Payload)) (name : String) :
    Refines (.record (before ++ (name, p) :: after)) (.record (before ++ (name, q) :: after)) := by
  refine .record ?_
  rw [asEntries_append_cons, asEntries_append_cons]
  exact .entry rfl h.form _ _

/-- A variant with items can stand for another if the sequence of them can. -/
theorem Refines.tupleVariant {items items' : List Payload} (h : Refines (.seq items) (.seq items'))
    (name : String) : Refines (.tupleVariant name items) (.tupleVariant name items') := by
  refine ⟨rfl, fun j hj => ?_⟩
  rw [toJson, toJsonWith_tupleVariant] at hj ⊢
  exact (h.newtypeVariant name).form j hj

/-- A variant with fields can stand for another if the record of them can. -/
theorem Refines.recordVariant {parts parts' : List (String × Payload)}
    (h : Refines (.record parts) (.record parts')) (name : String) :
    Refines (.recordVariant name parts) (.recordVariant name parts') := by
  refine ⟨rfl, fun j hj => ?_⟩
  rw [toJson, toJsonWith_recordVariant] at hj ⊢
  exact (h.newtypeVariant name).form j hj

/-- What can be done at some place inside of a payload can be done to the payload. Induction
on the steps and the places. To stand for a payload is preserved by every constructor, and
each case is one of these facts. -/
theorem Inside.refines {R : Payload → Payload → Prop} (hR : ∀ p q, R p q → Refines p q)
    (h : Inside R p q) : Refines p q := by
  induction h with
  | step h => exact hR _ _ h
  | refl p => exact .refl p
  | trans _ _ ihpq ihqr => exact ihpq.trans ihqr
  | some _ ih => exact ⟨rfl, ih.form⟩
  | newtype _ ih => exact ⟨ih.key, ih.form⟩
  | newtypeVariant name _ ih => exact ih.newtypeVariant name
  | item before after _ ih => exact ih.seq before after
  | variantItem name before after _ ih => exact (ih.seq before after).tupleVariant name
  | key before after value _ ih => exact .entry ih.key (fun _ h => h) before after
  | value before after key _ ih => exact .entry rfl ih.form before after
  | field before after name _ ih => exact ih.field before after name
  | variantField variant before after name _ ih =>
      exact (ih.field before after name).recordVariant variant

/-- Steps inside of a payload can be taken back if each of them can. -/
theorem Inside.symm {R : Payload → Payload → Prop} (hR : ∀ p q, R p q → R q p)
    (h : Inside R p q) : Inside R q p := by
  induction h with
  | step h => exact .step (hR _ _ h)
  | refl p => exact .refl p
  | trans _ _ ihpq ihqr => exact ihqr.trans ihpq
  | some _ ih => exact .some ih
  | newtype _ ih => exact .newtype ih
  | newtypeVariant name _ ih => exact .newtypeVariant name ih
  | item before after _ ih => exact .item before after ih
  | variantItem name before after _ ih => exact .variantItem name before after ih
  | key before after value _ ih => exact .key before after value ih
  | value before after key _ ih => exact .value before after key ih
  | field before after name _ ih => exact .field before after name ih
  | variantField variant before after name _ ih => exact .variantField variant before after name ih

/-! ### Another order -/

/-- Two entries have different key texts, if both have one. -/
def Apart (e f : Payload × Payload) : Prop :=
  ∀ name, keyText e.1 = .ok name → keyText f.1 ≠ .ok name

/-- That two entries have different key texts does not depend on their order. -/
theorem Apart.symm {e f : Payload × Payload} (h : Apart e f) : Apart f e :=
  fun name hf he => h name he hf

/-- The entries of a map, all with different key texts, or the fields of a record, all with
different names, are emitted in another order. -/
inductive Shuffled : Payload → Payload → Prop
  | map {entries entries' : List (Payload × Payload)} :
      entries.Perm entries' → entries.Pairwise Apart → Shuffled (.map entries) (.map entries')
  | record {parts parts' : List (String × Payload)} :
      parts.Perm parts' → (parts.map Prod.fst).Nodup → Shuffled (.record parts) (.record parts')
  | recordVariant (name : String) {parts parts' : List (String × Payload)} :
      parts.Perm parts' → (parts.map Prod.fst).Nodup →
      Shuffled (.recordVariant name parts) (.recordVariant name parts')

/-- Two payloads differ only in the order in which fields and entries are emitted, at any depth. -/
def Reordered (p q : Payload) : Prop := Inside Shuffled p q

/-- Another order is taken back by another order. A permutation has an inverse, and the names
are apart in whatever order they come. -/
theorem Shuffled.symm (h : Shuffled p q) : Shuffled q p := by
  cases h with
  | map hperm hapart =>
      exact .map hperm.symm ((hperm.pairwise_iff fun h => Apart.symm h).1 hapart)
  | record hperm hnodup => exact .record hperm.symm ((hperm.map Prod.fst).nodup_iff.1 hnodup)
  | recordVariant name hperm hnodup =>
      exact .recordVariant name hperm.symm ((hperm.map Prod.fst).nodup_iff.1 hnodup)

/-- Entries with different key texts are put among others in any order. Induction on the
permutation: two neighbours may be exchanged, because they do not overwrite each other. -/
theorem entriesWith_perm {entries entries' : List (Payload × Payload)}
    (hperm : entries.Perm entries') (hapart : entries.Pairwise Apart)
    (h : entriesWith Fields.insert entries done = .ok fields) :
    entriesWith Fields.insert entries' done = .ok fields := by
  induction hperm generalizing done with
  | nil => exact h
  | cons entry _ ih =>
      obtain ⟨name, hname, form, hform, hrest⟩ := entriesWith_cons_eq_ok_iff.1 h
      exact entriesWith_cons_eq_ok_iff.2
        ⟨name, hname, form, hform, ih (List.pairwise_cons.1 hapart).2 hrest⟩
  | swap e f rest =>
      obtain ⟨a, ha, v, hv, hnext⟩ := entriesWith_cons_eq_ok_iff.1 h
      obtain ⟨b, hb, w, hw, hrest⟩ := entriesWith_cons_eq_ok_iff.1 hnext
      -- Neighbours with different key texts go to different places, in either order.
      have hne : a ≠ b := by
        rintro rfl
        exact (List.pairwise_cons.1 hapart).1 e List.mem_cons_self a ha hb
      rw [Fields.insert_comm done hne] at hrest
      exact entriesWith_cons_eq_ok_iff.2
        ⟨b, hb, w, hw, entriesWith_cons_eq_ok_iff.2 ⟨a, ha, v, hv, hrest⟩⟩
  | trans hfirst _ ihfirst ihsecond =>
      -- The keys are apart in the order between the two as well.
      have hmiddle := (hfirst.pairwise_iff fun h => Apart.symm h).1 hapart
      exact ihsecond hmiddle (ihfirst hapart h)

/-- A map can stand for another with the same entries in another order. -/
theorem Refines.of_perm {entries entries' : List (Payload × Payload)}
    (hperm : entries.Perm entries') (hapart : entries.Pairwise Apart) :
    Refines (.map entries) (.map entries') := by
  refine ⟨rfl, fun j hj => ?_⟩
  obtain ⟨fields, hfields, hobject⟩ := toJson_map_eq_ok_iff.1 hj
  exact toJson_map_eq_ok_iff.2 ⟨fields, entriesWith_perm hperm hapart hfields, hobject⟩

/-- Different names are different key texts. The key of a field is its name, so the texts of
two keys are equal only if the names are. -/
theorem pairwise_apart_asEntries {parts : List (String × Payload)}
    (h : (parts.map Prod.fst).Nodup) : (asEntries parts).Pairwise Apart := by
  refine List.pairwise_map.2 ((List.pairwise_map.1 h).imp ?_)
  intro e f hne name he hf
  exact hne ((Except.ok.inj he).trans (Except.ok.inj hf).symm)

/-- A payload whose entries were put in another order can stand for the payload. There is a
case for maps, one for records and one for variants with fields, and the last two are turned
into maps. -/
theorem Shuffled.refines (h : Shuffled p q) : Refines p q := by
  cases h with
  | map hperm hapart => exact .of_perm hperm hapart
  | record hperm hnodup =>
      exact .record (.of_perm (hperm.map _) (pairwise_apart_asEntries hnodup))
  | recordVariant name hperm hnodup =>
      have hrecord := Refines.record (.of_perm (hperm.map _) (pairwise_apart_asEntries hnodup))
      exact hrecord.recordVariant name

/-- Payloads that differ only in the order of emission have the same form, or both have none.
Each can stand for the other. -/
theorem Reordered.toJson_eq_ok_iff (h : Reordered p q) (j : Json) :
    p.toJson = .ok j ↔ q.toJson = .ok j := by
  have hback : Reordered q p := Inside.symm (fun _ _ => Shuffled.symm) h
  exact ⟨(Inside.refines (fun _ _ => Shuffled.refines) h).form j,
    (Inside.refines (fun _ _ => Shuffled.refines) hback).form j⟩

/-! ### Entries that are overwritten -/

/-- An entry of a map is left out, and a later one has its key text. -/
inductive Overwritten : Payload → Payload → Prop
  | map (before middle after : List (Payload × Payload)) {key value key' value' : Payload}
      {name : String} : keyText key = .ok name → keyText key' = .ok name →
      Overwritten (.map (before ++ (key, value) :: (middle ++ (key', value') :: after)))
        (.map (before ++ (middle ++ (key', value') :: after)))

/-- What was put in for a name does not matter if something else will be put in for it. What
stands between does not look at it. -/
theorem entriesWith_overwritten {key value : Payload} {name : String}
    (hkey : keyText key = .ok name) (middle after : List (Payload × Payload)) (form : Json)
    (h : entriesWith Fields.insert (middle ++ (key, value) :: after) (done.insert name form)
      = .ok fields) :
    entriesWith Fields.insert (middle ++ (key, value) :: after) done = .ok fields := by
  induction middle generalizing done with
  | nil =>
      obtain ⟨_, hname, later, hlater, hrest⟩ := entriesWith_cons_eq_ok_iff.1 h
      obtain rfl := Except.ok.inj (hkey.symm.trans hname)
      -- The later entry takes the place of the form.
      rw [Fields.insert_insert] at hrest
      exact entriesWith_cons_eq_ok_iff.2 ⟨name, hkey, later, hlater, hrest⟩
  | cons entry middle ih =>
      obtain ⟨other, hother, later, hlater, hrest⟩ := entriesWith_cons_eq_ok_iff.1 h
      refine entriesWith_cons_eq_ok_iff.2 ⟨other, hother, later, hlater, ?_⟩
      -- What stands between overwrites it already, or puts something elsewhere.
      by_cases heq : name = other
      · subst heq
        rwa [Fields.insert_insert] at hrest
      · rw [Fields.insert_comm done heq] at hrest
        exact ih hrest

/-- A payload without an entry that is overwritten can stand for the payload with it. It goes
one way only: a payload with a faulty entry has no form, although the one without it may
have. -/
theorem Overwritten.refines (h : Overwritten p q) : Refines p q := by
  cases h with
  | map before middle after hkey hkey' =>
      refine ⟨rfl, fun j hj => ?_⟩
      obtain ⟨fields, hfields, hobject⟩ := toJson_map_eq_ok_iff.1 hj
      refine toJson_map_eq_ok_iff.2 ⟨fields, ?_, hobject⟩
      clear hj hobject
      -- The induction over the entries before needs any fields that are done.
      generalize ([] : Fields) = done at hfields ⊢
      induction before generalizing done with
      | nil =>
          obtain ⟨_, hname, form, -, hrest⟩ := entriesWith_cons_eq_ok_iff.1 hfields
          obtain rfl := Except.ok.inj (hkey.symm.trans hname)
          exact entriesWith_overwritten hkey' middle after form hrest
      | cons entry before ih =>
          obtain ⟨other, hother, form, hform, hrest⟩ := entriesWith_cons_eq_ok_iff.1 hfields
          exact entriesWith_cons_eq_ok_iff.2 ⟨other, hother, form, hform, ih _ hrest⟩

/-- The last of the entries with this key text has this form. -/
def LastOf (entries : List (Payload × Payload)) (name : String) (form : Json) : Prop :=
  ∃ before key value after, entries = before ++ (key, value) :: after ∧
    keyText key = .ok name ∧ value.toJson = .ok form ∧ ∀ e ∈ after, keyText e.1 ≠ .ok name

/-- The last entry is among those after the first, or it is the first and no other has its
key text. -/
theorem lastOf_cons_iff {key value : Payload} {rest : List (Payload × Payload)} {name : String}
    {form : Json} : LastOf ((key, value) :: rest) name form ↔ LastOf rest name form ∨
      keyText key = .ok name ∧ value.toJson = .ok form ∧ ∀ e ∈ rest, keyText e.1 ≠ .ok name := by
  constructor
  · rintro ⟨before, key', value', after, heq, hlast⟩
    -- The first entry is the last of its key text only if no entry stands before it.
    cases before with
    | nil =>
        obtain ⟨hentry, rfl⟩ := List.cons.inj heq
        obtain ⟨rfl, rfl⟩ := Prod.mk.inj hentry
        exact .inr hlast
    | cons entry before =>
        exact .inl ⟨before, key', value', after, (List.cons.inj heq).2, hlast⟩
  · rintro (⟨before, key', value', after, rfl, hlast⟩ | hlast)
    · exact ⟨(key, value) :: before, key', value', after, rfl, hlast⟩
    · exact ⟨[], key, value, rest, rfl, hlast⟩

/-- Behind the fields from before, which entries overwrite, stands what the last entries
have. -/
theorem mem_entriesWith_iff {entries : List (Payload × Payload)} (hdone : done.Ascending)
    (h : entriesWith Fields.insert entries done = .ok fields) (name : String) (form : Json) :
    (name, form) ∈ fields ↔ LastOf entries name form ∨
      (name, form) ∈ done ∧ ∀ e ∈ entries, keyText e.1 ≠ .ok name := by
  induction entries generalizing done with
  | nil =>
      rw [← Except.ok.inj h]
      have hnone : ¬LastOf [] name form := by
        rintro ⟨before, _, _, _, heq, -⟩
        cases before <;> cases heq
      simp [hnone]
  | cons entry rest ih =>
      obtain ⟨key, value⟩ := entry
      obtain ⟨first, hkey, form', hform', hrest⟩ := entriesWith_cons_eq_ok_iff.1 h
      have hvalue : value.toJson = .ok form' := hform'
      -- The first entry is put among the fields from before, and the hypothesis is for these.
      rw [ih hdone.insert hrest, Fields.mem_insert_iff hdone, lastOf_cons_iff, hkey, hvalue,
        List.forall_mem_cons, hkey]
      simp only [Prod.mk.injEq, Except.ok.injEq, ne_eq, eq_comm (a := first),
        eq_comm (a := form')]
      tauto

/-- Of the entries of one key text a map shows the last one's value. -/
theorem mem_fields_iff_lastOf {entries : List (Payload × Payload)}
    (h : toJson (.map entries) = .ok (.object fields)) (name : String) (form : Json) :
    (name, form) ∈ fields ↔ LastOf entries name form := by
  obtain ⟨fields', hfields, hobject⟩ := toJson_map_eq_ok_iff.1 h
  obtain rfl := Json.object.inj hobject
  rw [mem_entriesWith_iff List.Pairwise.nil hfields]
  simp

/-! ### Canonical texts -/

/-- A payload has a canonical text if it has a form, and it is the text of the form. -/
theorem canonical_eq_ok_iff {text : String} :
    p.canonical = .ok text ↔ ∃ j, p.toJson = .ok j ∧ j.canonical = text := by
  show (p.toJson >>= fun j => .ok j.canonical) = .ok text ↔ _
  simp only [bind_eq_ok_iff, Except.ok.injEq]

/-- Payloads of one canonical text have the same signatures, since a signature is made of the
text alone. -/
theorem sign_eq_ok_iff (h : ∀ text, p.canonical = .ok text ↔ q.canonical = .ok text)
    (key signature : String) :
    Signing.sign key p = .ok signature ↔ Signing.sign key q = .ok signature := by
  rw [Signing.sign, Signing.sign]
  cases Secret.ofHex key with
  | error e => exact Iff.rfl
  | ok secret =>
      show Signing.signPayload secret p = _ ↔ Signing.signPayload secret q = _
      rw [Signing.signPayload_eq_ok_iff, Signing.signPayload_eq_ok_iff]
      exact exists_congr fun text => and_congr_left' (h text)

/-- What a canonical text shows: the text that a payload is, or one value and no other, with
the names of every object within it ascending by their bytes. -/
theorem names_ascending {text : String} (h : p.canonical = .ok text) :
    p.toJson = .ok (.text text) ∨
      ∃ j, p.toJson = .ok j ∧ (∀ other : Json, other.render = text ↔ other = j) ∧
        ∀ fields, Within (.object fields) j →
          fields.Pairwise fun f g => Bytes.ofText f.1 < Bytes.ofText g.1 := by
  obtain ⟨j, hj, rfl⟩ := canonical_eq_ok_iff.1 h
  have hordered := ordered_toJson p hj
  by_cases htext : ∃ s, j = .text s
  · obtain ⟨s, rfl⟩ := htext
    exact .inl hj
  · -- The value is no text, and its fields are in order already, so it is printed as it is.
    have hrender : j.canonical = j.render := by
      rw [Json.canonical_of_not_text (not_exists.1 htext), Json.sorted_of_ordered j hordered]
    refine .inr ⟨j, hj, fun other => ?_, fun fields hwithin => ?_⟩
    · rw [hrender]
      exact ⟨Json.render_inj, fun heq => heq ▸ rfl⟩
    · exact (hwithin.ascending hordered).imp Bytes.ofText_lt_iff.2

/-- The canonical form does not depend on the order of emission. Payloads that differ only in the
order in which they emit the fields of records and the entries of maps, at any depth, have the same
canonical text or both have none, and so the same signatures. That is so too if objects keep the
order of insertion, because then the same text is signed. In a canonical text the names of every
object ascend by their bytes. Of the entries of one key text a map shows the last one's value, and
the others may be left out at any depth. -/
theorem canonical_reordered :
    (∀ p q : Payload, Reordered p q →
      (∀ text, p.canonical = .ok text ↔ q.canonical = .ok text) ∧
      (∀ text, p.canonicalKept = .ok text ↔ q.canonicalKept = .ok text) ∧
      ∀ key signature, Signing.sign key p = .ok signature ↔ Signing.sign key q = .ok signature) ∧
    (∀ p : Payload, p.canonicalKept = p.canonical) ∧
    (∀ (p : Payload) (text : String), p.canonical = .ok text →
      p.toJson = .ok (.text text) ∨
        ∃ j, p.toJson = .ok j ∧ (∀ other : Json, other.render = text ↔ other = j) ∧
          ∀ fields, Within (.object fields) j →
            fields.Pairwise fun f g => Bytes.ofText f.1 < Bytes.ofText g.1) ∧
    (∀ (entries : List (Payload × Payload)) (fields : Fields),
      toJson (.map entries) = .ok (.object fields) →
      ∀ name form, (name, form) ∈ fields ↔ LastOf entries name form) ∧
    ∀ p q : Payload, Inside Overwritten p q →
      ∀ text, p.canonical = .ok text → q.canonical = .ok text := by
  refine ⟨fun p q h => ?_, canonicalKept_eq, fun p text h => names_ascending h,
    fun entries fields h => mem_fields_iff_lastOf h, fun p q h text htext => ?_⟩
  · -- The two have the same forms, and the canonical text is that of the form.
    have hcanonical : ∀ text, p.canonical = .ok text ↔ q.canonical = .ok text := by
      intro text
      rw [canonical_eq_ok_iff, canonical_eq_ok_iff]
      exact exists_congr fun j => and_congr_left' (h.toJson_eq_ok_iff j)
    refine ⟨hcanonical, fun text => ?_, sign_eq_ok_iff hcanonical⟩
    rw [canonicalKept_eq, canonicalKept_eq]
    exact hcanonical text
  · obtain ⟨j, hj, hj'⟩ := canonical_eq_ok_iff.1 htext
    -- A payload that lost an overwritten entry has the form of the one that had it.
    have hrefines := Inside.refines (fun _ _ => Overwritten.refines) h
    exact canonical_eq_ok_iff.2 ⟨j, hrefines.form j hj, hj'⟩

/-- A list of a map whose keys are no texts, with a record in one of its values. -/
def emitted : Payload :=
  .seq [.map [(.int 2, .record [("b", .unit), ("a", .bool true)]), (.bool true, .text "x")]]

/-- The same with the entries of the map and the fields of the record in another order. -/
def emittedAnew : Payload :=
  .seq [.map [(.bool true, .text "x"), (.int 2, .record [("a", .bool true), ("b", .unit)])]]

/-- A map in which two keys become the same text. -/
def colliding : Payload := .map [(.int 1, .text "old"), (.text "1", .text "new")]

/-- Two orders of emission have one canonical text, and of two values for one key text the later
one is in it. -/
theorem canonical_reordered_nested :
    (Reordered emitted emittedAnew ∧ emittedAnew.canonical
      = .ok "[\x7b\"2\":\x7b\"a\":true,\"b\":null\x7d,\"true\":\"x\"\x7d]") ∧
    Inside Overwritten colliding (.map [(.text "1", .text "new")]) ∧
      (Payload.map [(.text "1", .text "new")]).canonical = .ok "\x7b\"1\":\"new\"\x7d" := by
  have hentries : Shuffled
      (.map [(.int 2, .record [("b", .unit), ("a", .bool true)]), (.bool true, .text "x")])
      (.map [(.bool true, .text "x"), (.int 2, .record [("b", .unit), ("a", .bool true)])]) := by
    refine .map (List.Perm.swap ..) (List.pairwise_pair.2 fun name h heq => ?_)
    rw [← Except.ok.inj h] at heq
    exact absurd (Except.ok.inj heq) (by decide)
  have hfields : Shuffled (.record [("b", .unit), ("a", .bool true)])
      (.record [("a", .bool true), ("b", .unit)]) :=
    .record (List.Perm.swap ..) (by decide)
  -- First the entries of the map change places, then the fields of the record within it.
  have hreordered : Reordered emitted emittedAnew :=
    .trans (.item [] [] (.step hentries))
      (.item [] [] (.value [(.bool true, .text "x")] [] (.int 2) (.step hfields)))
  have hoverwritten : Inside Overwritten colliding (.map [(.text "1", .text "new")]) :=
    .step (.map [] [] [] rfl rfl)
  refine ⟨⟨hreordered, ?_⟩, hoverwritten, ?_⟩
  · exact ((canonical_reordered.1 emitted emittedAnew hreordered).1 _).1 rfl
  · exact canonical_reordered.2.2.2.2 colliding _ hoverwritten _ rfl

end Keyring.Payload
