import Keyring.Proofs.Json.Printer
import Keyring.Proofs.Payload

/-!
# `Keyring.Proofs.Binding`: what a canonical text stands for

A text is signed as it stands and any other value as it is printed, so a text can
spell out another value. That is the only way for two values to have the same
canonical text. The theorems:

* `canonical_eq_iff_sorted`: when two values, their fields in any order, have the same
  canonical text.
* `canonical_eq_iff`: the same for values with their fields in order.
-/

set_option autoImplicit false

namespace Keyring

namespace Json

/-- A value is a text, and its characters are the canonical text of a value that is none. -/
def Spells (v w : Json) : Prop :=
  ∃ s, v = .text s ∧ (∀ t, w ≠ .text t) ∧ (Payload.ofJson w).canonical = .ok s

variable {v w : Json}

/-- A value that is no text is printed with its fields in order. Texts are the exception:
they are signed as they are, without quotes. -/
theorem canonical_of_not_text (h : ∀ s, v ≠ .text s) : v.canonical = v.sorted.render := by
  cases v with
  | text s => exact absurd rfl (h s)
  | _ => rfl

/-- A text that is the canonical text of a value which is no text spells that value, because
such a value always has a canonical text. -/
theorem spells_of_canonical {s : String} (hw : ∀ t, w ≠ .text t) (h : s = w.canonical) :
    Spells (.text s) w := by
  refine ⟨s, rfl, hw, ?_⟩
  rw [Payload.canonical_ofJson, h]

/-- A text that spells a value has the canonical text of the value: a text is its own
canonical text, and that is how spelling was defined. -/
theorem Spells.canonical_eq (h : Spells v w) : v.canonical = w.canonical := by
  obtain ⟨s, rfl, -, hw⟩ := h
  rw [Payload.canonical_ofJson] at hw
  exact (Except.ok.inj hw).symm

/-- Values of one canonical text are the same up to the order of fields, or one spells the
other. There are four cases, by which of the two is a text; where neither is, the printer is
injective on values with sorted fields. -/
theorem canonical_eq_iff_sorted :
    v.canonical = w.canonical ↔ v.sorted = w.sorted ∨ Spells v w ∨ Spells w v := by
  constructor
  · intro h
    by_cases hv : ∃ s, v = .text s <;> by_cases hw : ∃ t, w = .text t
    · obtain ⟨s, rfl⟩ := hv
      obtain ⟨t, rfl⟩ := hw
      exact .inl (congrArg Json.text h)
    · obtain ⟨s, rfl⟩ := hv
      exact .inr (.inl (spells_of_canonical (not_exists.1 hw) h))
    · obtain ⟨t, rfl⟩ := hw
      exact .inr (.inr (spells_of_canonical (not_exists.1 hv) h.symm))
    · -- Neither is a text, so both are printed, and the printer is injective.
      rw [canonical_of_not_text (not_exists.1 hv), canonical_of_not_text (not_exists.1 hw)] at h
      exact .inl (render_inj h)
  · rintro (h | h | h)
    · rw [← canonical_sorted v, h, canonical_sorted]
    · exact h.canonical_eq
    · exact h.canonical_eq.symm

/-- Two values have the same canonical text if and only if they are the same, or one of them
is a text that spells the other, which is no text. The two zeros of floats are not the same. -/
theorem canonical_eq_iff (hv : v.Ordered) (hw : w.Ordered) :
    (∃ s, (Payload.ofJson v).canonical = .ok s ∧ (Payload.ofJson w).canonical = .ok s) ↔
      v = w ∨ Spells v w ∨ Spells w v := by
  have hiff : v.canonical = w.canonical ↔ v = w ∨ Spells v w ∨ Spells w v := by
    rw [canonical_eq_iff_sorted, sorted_of_ordered v hv, sorted_of_ordered w hw]
  rw [Payload.canonical_ofJson, Payload.canonical_ofJson, ← hiff]
  constructor
  · rintro ⟨s, hvs, hws⟩
    exact (Except.ok.inj hvs).trans (Except.ok.inj hws).symm
  · intro h
    exact ⟨v.canonical, rfl, congrArg Except.ok h.symm⟩

/-- The canonical text of an object, as a text, is signed as the object is. Both values have
their fields in order, so this is the one case in which the signed text does not tell them
apart. -/
theorem canonical_eq_iff_spelled :
    Ordered (.text "\x7b\"a\":[true,-1],\"b\":null\x7d") ∧
    Ordered (.object [("a", .list [.bool true, .whole ⟨-1, by decide, by decide⟩]), ("b", .null)]) ∧
    ∃ s, (Payload.ofJson (.text "\x7b\"a\":[true,-1],\"b\":null\x7d")).canonical = .ok s ∧
      (Payload.ofJson (.object [("a", .list [.bool true, .whole ⟨-1, by decide, by decide⟩]),
        ("b", .null)])).canonical = .ok s := by
  have hobject : Ordered (.object [("a", .list [.bool true, .whole ⟨-1, by decide, by decide⟩]),
      ("b", .null)]) :=
    ⟨by unfold Fields.Ascending; decide, ⟨trivial, trivial, trivial⟩, trivial, trivial⟩
  have htext : Ordered (.text "\x7b\"a\":[true,-1],\"b\":null\x7d") := trivial
  refine ⟨htext, hobject, (canonical_eq_iff htext hobject).2 (.inr (.inl ⟨_, rfl, ?_, ?_⟩))⟩
  · intro t h
    cases h
  · rw [Payload.canonical_ofJson]
    decide

end Json
end Keyring
