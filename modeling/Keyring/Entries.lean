/-!
# `Keyring.Entries`: ordered lists of entries

Several parts hold what stands under which key as a list of entries: a store in
memory, a tree of files, the fields of a JSON object. All of them put an entry
into its place by the one `insert` of this file. It passes the list once and
replaces an entry of the same key, so keys that ascend go on ascending and none
stands twice.

* `lookup_insert`, `lookup_filter_ne`: what is found after an entry was put in
  or taken out.

Neither of them needs the keys to ascend. The first entry of a key is the one
that counts, and `insert` puts the new one before any other of its key.
-/

set_option autoImplicit false

namespace Keyring.Entries

variable {α β : Type}

/-- Puts an entry into its place by key; an entry of the same key is dropped. -/
def insert [LT α] [DecidableLT α] [DecidableEq α] (key : α) (value : β) :
    List (α × β) → List (α × β)
  | [] => [(key, value)]
  | entry :: rest =>
    if key < entry.1 then (key, value) :: entry :: rest
    else if key = entry.1 then (key, value) :: rest
    else entry :: insert key value rest

/-! ### What a key holds -/

variable [BEq α] [LawfulBEq α] [DecidableEq α]

/-- The first entry decides about its own key and about no other. The comparison is
stated as an equation, which the look-ups below split on. -/
theorem lookup_entry (key other : α) (value : β) (rest : List (α × β)) :
    List.lookup other ((key, value) :: rest)
      = if other = key then some value else List.lookup other rest := by
  by_cases hsame : other = key
  · simp [hsame]
  · have hbeq : (other == key) = false := beq_false_of_ne hsame
    simp [List.lookup_cons, hsame, hbeq]

/-- An entry that was put in is found under its own key, and every other key holds what it
held. Where the new entry replaces an old one, the old one had the same key, so its loss
shows under that key alone. -/
theorem lookup_insert [LT α] [DecidableLT α] (key other : α) (value : β)
    (entries : List (α × β)) :
    List.lookup other (insert key value entries)
      = if other = key then some value else List.lookup other entries := by
  induction entries with
  | nil => simp [insert, lookup_entry]
  | cons first rest ih =>
      obtain ⟨name, old⟩ := first
      simp only [insert]
      split
      · simp [lookup_entry]
      · split
        · -- The entry is replaced, so the old value of this name is lost and that of no other.
          rename_i hhere
          subst hhere
          simp only [lookup_entry]
          split <;> rfl
        · -- The insertion goes on behind this entry, whose name is another.
          rename_i hhere
          simp only [lookup_entry, ih]
          by_cases hsame : other = key
          · simp [hsame, hhere]
          · simp [hsame]

/-- A key whose entries were taken out holds nothing, and every other key holds what it
held: the filter drops an entry only for its own key. -/
theorem lookup_filter_ne (key other : α) (entries : List (α × β)) :
    List.lookup other (entries.filter fun entry => entry.1 ≠ key)
      = if other = key then none else List.lookup other entries := by
  induction entries with
  | nil => simp
  | cons first rest ih =>
      obtain ⟨name, value⟩ := first
      by_cases hhere : name = key
      · -- The entry goes, and what is asked for under its name is looked for further on.
        subst hhere
        rw [List.filter_cons_of_neg (by simp), ih, lookup_entry]
        split <;> rfl
      · rw [List.filter_cons_of_pos (by simpa using hhere), lookup_entry, lookup_entry, ih]
        by_cases hsame : other = key
        · subst hsame
          simp [Ne.symm hhere]
        · simp [hsame]

end Keyring.Entries
