import Keyring.Entries

/-!
# `Keyring.Proofs.Entries`: the entries of some keys

Some entries are made from a list of keys and a function that may have a value
for each of them. The theorems:

* `lookup_given`, `map_given`, `names_given`: what is found among the entries of
  the keys that have a value, and what becomes of them under other keys.
-/

set_option autoImplicit false

namespace Keyring.Entries

variable {α β : Type}

/-! ### Look-ups -/

section
variable [BEq α] [LawfulBEq α]

/-- A key that no entry has is not found. The hypothesis is about keys alone, so it can be
had from the list of keys. -/
theorem lookup_eq_none_of_not_mem {key : α} {entries : List (α × β)}
    (h : key ∉ entries.map Prod.fst) : List.lookup key entries = none := by
  rw [List.lookup_eq_none_iff]
  intro entry hentry
  exact bne_iff_ne.2 fun heq => h (heq ▸ List.mem_map_of_mem hentry)

end

/-! ### The entries of some keys -/

/-- The entries of the keys that have a value. -/
def given (keys : List α) (value? : α → Option β) : List (α × β) :=
  keys.filterMap fun key => (value? key).map (key, ·)

variable {γ δ : Type}

/-- The entries of the first key and of the others: one entry if the first key has a value,
and none if it has not. -/
theorem given_cons (key : α) (keys : List α) (value? : α → Option β) :
    given (key :: keys) value? = ((value? key).map (key, ·)).toList ++ given keys value? := by
  cases h : value? key <;> simp [given, h]

/-- The entries of two lists of keys stand one after the other. A value that a key does not
have leaves no gap. -/
theorem given_append (keys more : List α) (value? : α → Option β) :
    given (keys ++ more) value? = given keys value? ++ given more value? :=
  List.filterMap_append

/-- The keys of the entries are those that have a value, in the order they were asked for. -/
theorem fst_given (keys : List α) (value? : α → Option β) :
    (given keys value?).map Prod.fst = keys.filter fun key => (value? key).isSome := by
  induction keys with
  | nil => rfl
  | cons key keys ih =>
      rw [given_cons, List.map_append, ih]
      cases h : value? key <;> simp [h]

/-- The value of a key is found if the key is one of those. A key that was asked for twice
has the same value both times, so repetitions do no harm. -/
theorem lookup_given [DecidableEq α] (keys : List α) (value? : α → Option β) (other : α) :
    (given keys value?).lookup other = if other ∈ keys then value? other else none := by
  induction keys with
  | nil => rfl
  | cons key keys ih =>
      rw [given_cons, List.lookup_append, ih]
      by_cases hsame : other = key
      · subst hsame
        cases value? other <;> simp
      · cases value? key <;> simp [lookup_entry, hsame]

/-- Entries are those of other keys when each key is exchanged. The function need not keep
keys apart, because the value depends on the new key alone. -/
theorem map_given (f : γ → α) (keys : List γ) (value? : α → Option β) :
    (given keys fun key => value? (f key)).map (fun entry => (f entry.1, entry.2))
      = given (keys.map f) value? := by
  induction keys with
  | nil => rfl
  | cons key keys ih =>
      rw [List.map_cons, given_cons, given_cons, List.map_append, ih]
      cases value? (f key) <;> rfl

/-- The keys of entries that are written in another form come in the order of the keys. Those
without a value are left out, so it is a sublist. Distinct names in the list of keys are
therefore distinct in the entries. -/
theorem names_given (name : α → γ) (text : β → δ) (keys : List α) (value? : α → Option β) :
    (((given keys value?).map fun entry => (name entry.1, text entry.2)).map Prod.fst).Sublist
      (keys.map name) := by
  have hnames : ((given keys value?).map fun entry => (name entry.1, text entry.2)).map Prod.fst
      = ((given keys value?).map Prod.fst).map name := by
    simp
  rw [hnames, fst_given]
  exact List.filter_sublist.map name

end Keyring.Entries
