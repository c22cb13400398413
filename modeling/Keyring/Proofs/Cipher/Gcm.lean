import Keyring.Cipher.Gcm

/-!
# `Keyring.Proofs.Cipher.Gcm`: opening undoes sealing and nothing else

* `decrypt?_eq_some_iff`: a sealed text opens to a text exactly if sealing that
  text under the same cipher and vector gives it.
-/

set_option autoImplicit false

namespace Keyring.Gcm

variable {cipher : Cipher}

/-- A tag has sixteen bytes: it is a sum of sixteen bytes of the hash and one block of the
cipher. -/
theorem length_tag (whole : ∀ b, (cipher b).length = 16) (iv masked : Bytes) :
    (tag cipher iv masked).length = tagLength := by
  rw [tag, Bytes.xor, List.length_zipWith, Bytes.length_ofNat, whole]
  rfl

/-- The tag of a sealed text is that of its masked text, so whoever opens it can compute it
before the mask is taken off. -/
theorem tag_encrypt (iv text : Bytes) :
    (encrypt cipher iv text).tag = tag cipher iv (encrypt cipher iv text).masked := by
  simp only [encrypt]

/-- The tag of a sealed text has sixteen bytes. It is a block of the cipher added to another
block. -/
theorem length_tag_encrypt (whole : ∀ b, (cipher b).length = 16) (iv text : Bytes) :
    (encrypt cipher iv text).tag.length = tagLength := by
  rw [tag_encrypt, length_tag whole]

/-- A sealed text opens to a text exactly if that text is sealed to it. The tag is a function
of the masked text, and the masked text of the text, so nothing else opens to it. -/
theorem decrypt?_eq_some_iff (whole : ∀ b, (cipher b).length = 16) (iv : Bytes) (blob : Sealed)
    (text : Bytes) :
    decrypt? cipher iv blob = some text ↔
      iv.length = ivLength ∧ blob = encrypt cipher iv text := by
  constructor
  · intro h
    unfold decrypt? at h
    split at h
    · rename_i hparts
      obtain ⟨hiv, htag⟩ := hparts
      obtain rfl := Option.some.inj h
      -- To mask twice gives the masked text back, and the tag was found to be its tag.
      refine ⟨hiv, ?_⟩
      simp only [encrypt, mask_mask whole, ← htag]
    · cases h
  · rintro ⟨hiv, rfl⟩
    exact decrypt?_encrypt whole hiv text

end Keyring.Gcm
