import Keyring.Text.Split

/-!
# `Keyring.Proofs.Text.Split`: starts and separators

The theorems:

* `eq_append_of_splitLast?`: a text is what its parts and the separator between
  them make.
* `splitLast?_append`: a text is cut at a separator if nothing after it could
  be part of another one.
* `dropStart?_append_of_not_mem`: a start reaches no further than the last
  place of its last character.
-/

set_option autoImplicit false

namespace Keyring.Text

/-- A text is what its parts and the separator between them make. The induction goes along
the text, since the last separator is looked for from the end. -/
theorem eq_append_of_splitLast? {separator text before after : List Char}
    (h : splitLast? separator text = some (before, after)) :
    text = before ++ separator ++ after := by
  induction text generalizing before with
  | nil =>
      unfold splitLast? at h
      split at h
      · rename_i hempty
        obtain ⟨rfl, rfl⟩ := Prod.mk.inj (Option.some.inj h)
        rw [List.isEmpty_iff.1 hempty]
        rfl
      · exact absurd h nofun
  | cons c rest ih =>
      unfold splitLast? at h
      split at h
      · rename_i tail rest' hrest
        obtain ⟨rfl, rfl⟩ := Prod.mk.inj (Option.some.inj h)
        rw [ih hrest]
        rfl
      -- There is none later, so it stands at the front or nowhere.
      · split at h
        · rename_i hprefix
          obtain ⟨rfl, rfl⟩ := Prod.mk.inj (Option.some.inj h)
          obtain ⟨tail, htail⟩ := List.isPrefixOf_iff_prefix.1 hprefix
          rw [← htail, List.drop_left, List.nil_append]
        · exact absurd h nofun

/-- A separator does not begin inside itself and end in a text that shares no character with
it. So the last separator before such a text is the whole one. -/
theorem splitLast?_tail (s : Char) (separator after : List Char)
    (hafter : ∀ c ∈ after, c ∉ s :: separator) :
    splitLast? (s :: separator) (separator ++ after) = none := by
  rw [Option.eq_none_iff_forall_ne_some]
  rintro ⟨front, back⟩ h
  have htext := eq_append_of_splitLast? h
  -- The last character of the separator would stand in what comes after it.
  have hplace : (separator ++ after)[front.length + separator.length]?
      = (front ++ s :: separator ++ back)[front.length + separator.length]? := by
    rw [htext]
  have hlength := congrArg List.length htext
  simp only [List.length_append, List.length_cons] at hlength
  have hlast : (front ++ s :: separator ++ back)[front.length + separator.length]?
      = (s :: separator)[separator.length]? := by
    rw [List.getElem?_append_left (by simp only [List.length_append, List.length_cons]; omega),
      List.getElem?_append_right (by omega), Nat.add_sub_cancel_left]
  rw [hlast, List.getElem?_append_right (by omega), Nat.add_sub_cancel] at hplace
  obtain ⟨c, hc⟩ : ∃ c, (s :: separator)[separator.length]? = some c :=
    ⟨_, List.getElem?_eq_getElem (Nat.lt_succ_self _)⟩
  exact hafter c (List.mem_of_getElem? (hplace.trans hc)) (List.mem_of_getElem? hc)

/-- A text is cut at a separator with which nothing after it shares a character. Induction on
what stands before it. The digits of the second half have no colon, so the condition is met
by what the program writes. -/
theorem splitLast?_append {separator : List Char} (hseparator : separator ≠ [])
    (before : List Char) {after : List Char} (hafter : ∀ c ∈ after, c ∉ separator) :
    splitLast? separator (before ++ separator ++ after) = some (before, after) := by
  induction before with
  | nil =>
      obtain ⟨s, tail, rfl⟩ := List.exists_cons_of_ne_nil hseparator
      -- The separator stands here, and none begins after its first character.
      show splitLast? (s :: tail) (s :: (tail ++ after)) = _
      have hprefix : (s :: tail).isPrefixOf (s :: (tail ++ after)) = true :=
        List.isPrefixOf_iff_prefix.2 ⟨after, rfl⟩
      have hdrop : (s :: (tail ++ after)).drop (s :: tail).length = after :=
        List.drop_left
      rw [splitLast?, splitLast?_tail s tail after hafter, if_pos hprefix, hdrop]
  | cons c before ih =>
      show splitLast? separator (c :: (before ++ separator ++ after)) = _
      rw [splitLast?, ih]

/-- Nothing follows a start exactly if the text does not begin with it. -/
theorem dropStart?_eq_none_iff (start text : List Char) :
    dropStart? start text = none ↔ ¬ start <+: text := by
  rw [Option.eq_none_iff_forall_ne_some]
  constructor
  · rintro hnone ⟨rest, hrest⟩
    exact hnone rest ((dropStart?_eq_some_iff _ _ _).2 hrest.symm)
  · intro hstart rest hrest
    exact hstart ⟨rest, ((dropStart?_eq_some_iff _ _ _).1 hrest).symm⟩

/-- A start is found in two texts together exactly if it is found in the first one, when its
last character is not in the second one. The last character of a lead is a colon, and digits
have none, so a lead never reaches into the digits of a key. -/
theorem dropStart?_append_of_not_mem (start front : List Char) {last : Char} {back : List Char}
    (h : last ∉ back) : dropStart? (start ++ [last]) (front ++ back)
      = (dropStart? (start ++ [last]) front).map (· ++ back) := by
  refine Option.ext fun rest => ?_
  rw [dropStart?_eq_some_iff, Option.map_eq_some_iff]
  constructor
  · intro htexts
    obtain ⟨extra, hstart, hback⟩ | ⟨extra, hfront, hrest⟩ :=
      List.append_eq_append_iff.1 htexts
    -- The start goes on for `extra` in the second text, so it ends where the first one does.
    · obtain rfl : extra = [] := by
        rcases List.eq_nil_or_concat extra with rfl | ⟨body, c, rfl⟩
        · rfl
        · rw [List.concat_eq_append, ← List.append_assoc] at hstart
          obtain ⟨-, hlast⟩ := List.append_inj' hstart rfl
          refine absurd ?_ h
          rw [hback, List.singleton_inj.1 hlast, List.concat_eq_append]
          exact List.mem_append_left _ (List.mem_append_right _ (List.mem_singleton_self c))
      rw [List.append_nil] at hstart
      rw [List.nil_append] at hback
      exact ⟨[], (dropStart?_eq_some_iff _ _ _).2 (by rw [hstart, List.append_nil]), hback⟩
    · exact ⟨extra, (dropStart?_eq_some_iff _ _ _).2 hfront, hrest.symm⟩
  · rintro ⟨extra, hextra, rfl⟩
    rw [(dropStart?_eq_some_iff _ _ _).1 hextra, List.append_assoc]

end Keyring.Text
