import Keyring.Key.Sealed
import Keyring.Proofs.Bytes.Hex
import Keyring.Proofs.Cipher.Gcm

/-!
# `Keyring.Proofs.Key.Sealed`: a sealed key opens under its password and no other opens

* `length_secretCipher`: the cipher of a secret makes whole blocks.
* `SealedKey.decrypt?_eq_some_iff`: a sealed key decrypts to a text exactly if
  in lower case it is what that text is encrypted to with its vector.
* `SealedKey.decrypt?_iff_encrypted`: the same for vectors drawn from a source,
  and that malformed keys do not decrypt.

Decryption goes through five steps, each of which can end it; each step is
undone by one of encryption (`Hex.decode?_eq_some_iff`,
`Gcm.decrypt?_eq_some_iff`), so it is enough to put the equivalences in a row.
-/

set_option autoImplicit false

namespace Keyring

/-- The cipher of a secret makes whole blocks, which is all that the mode of operation asks
of it. It holds of every secret, because the key of the cipher is a digest of it. -/
theorem length_secretCipher (secret : String) (block : Bytes) :
    (secretCipher secret block).length = 16 :=
  Aes.length_encrypt _ block

/-- A source gives out the bytes that it was started with, before any others. -/
theorem Entropy.draw_given_all (given : Bytes) (drawn : Nat) :
    (Entropy.draw ⟨given, drawn⟩ given.length).1 = given := by
  induction given with
  | nil => rfl
  | cons b given ih =>
      show b :: (Entropy.draw ⟨given, drawn⟩ given.length).1 = _
      rw [ih]

/-- Every vector is drawn from some source, so a statement about all sources is one about all
vectors. -/
theorem Entropy.exists_draw_eq {iv : Bytes} (hiv : iv.length = Gcm.ivLength) :
    ∃ e : Entropy, (e.draw Gcm.ivLength).1 = iv := by
  refine ⟨Entropy.ofBytes iv, ?_⟩
  rw [← hiv]
  exact draw_given_all iv 0

namespace SealedKey

/-- What was encrypted under a password is decrypted under it: the parts are read back from
their digits, and the text from its bytes. -/
theorem decrypt?_encryptWith {iv : Bytes} (hiv : iv.length = Gcm.ivLength)
    (text password : String) : (encryptWith iv text password).decrypt? password = some text := by
  have hopen := Gcm.decrypt?_encrypt (length_secretCipher password) hiv (Bytes.ofText text)
  rw [decrypt?, encryptWith, Hex.decode?_encode, Hex.decode?_encode, Hex.decode?_encode]
  simp only [Option.bind_eq_bind, Option.bind_some]
  rw [hopen, Option.bind_some, Bytes.toText?_ofText]

/-- The vector of an encrypted text comes from the source, so the text is decrypted whatever
the source gave. -/
theorem decrypt?_encrypt (e : Entropy) (text password : String) :
    (encrypt e text password).1.decrypt? password = some text :=
  decrypt?_encryptWith (Entropy.draw_length e Gcm.ivLength) text password

/-! ### Which keys decrypt -/

/-- A sealed key with its hexadecimal digits in lower case. -/
def lower (key : SealedKey) : SealedKey :=
  ⟨Hex.lower key.cipherText, Hex.lower key.iv, Hex.lower key.authTag⟩

/-- A part of the key is not hexadecimal, or the vector or the tag has another length than it must
have. -/
def Malformed (key : SealedKey) : Prop :=
  Hex.decode? key.cipherText = none ∨
    (∀ iv, Hex.decode? key.iv = some iv → iv.length ≠ Gcm.ivLength) ∨
    ∀ tag, Hex.decode? key.authTag = some tag → tag.length ≠ Gcm.tagLength

/-- A key decrypts to a text exactly if its parts spell what the text is sealed to. Each of
the three parts is read first, and any of them may end it. -/
theorem decrypt?_eq_some_iff_parts (key : SealedKey) (text password : String) :
    key.decrypt? password = some text ↔
      ∃ iv, iv.length = Gcm.ivLength ∧ Hex.decode? key.iv = some iv ∧
        Hex.decode? key.cipherText
          = some (Gcm.encrypt (secretCipher password) iv (Bytes.ofText text)).masked ∧
        Hex.decode? key.authTag
          = some (Gcm.encrypt (secretCipher password) iv (Bytes.ofText text)).tag := by
  constructor
  · intro h
    obtain ⟨masked, hmasked, h⟩ := Option.bind_eq_some_iff.1 h
    obtain ⟨iv, hiv, h⟩ := Option.bind_eq_some_iff.1 h
    obtain ⟨tag, htag, h⟩ := Option.bind_eq_some_iff.1 h
    obtain ⟨plain, hopen, hplain⟩ := Option.bind_eq_some_iff.1 h
    -- The plain text is the bytes of the text, and only it is sealed to these parts.
    obtain ⟨hlength, hblob⟩ :=
      (Gcm.decrypt?_eq_some_iff (length_secretCipher password) _ _ _).1 hopen
    obtain rfl := Bytes.ofText_of_toText? hplain
    refine ⟨iv, hlength, hiv, ?_, ?_⟩
    · rw [← hblob]
      exact hmasked
    · rw [← hblob]
      exact htag
  · rintro ⟨iv, hlength, hiv, hmasked, htag⟩
    have hopen := Gcm.decrypt?_encrypt (length_secretCipher password) hlength (Bytes.ofText text)
    rw [decrypt?, hmasked, hiv, htag]
    simp only [Option.bind_eq_bind, Option.bind_some]
    rw [hopen, Option.bind_some, Bytes.toText?_ofText]

/-- A key decrypts to a text exactly if in lower case it is what the text is encrypted to
with the vector of the key. The case of the digits is the only freedom. -/
theorem decrypt?_eq_some_iff (key : SealedKey) (text password : String) :
    key.decrypt? password = some text ↔
      ∃ iv, iv.length = Gcm.ivLength ∧ Hex.decode? key.iv = some iv ∧
        key.lower = encryptWith iv text password := by
  rw [decrypt?_eq_some_iff_parts]
  refine exists_congr fun iv => and_congr_right fun _ => and_congr_right fun hiv => ?_
  rw [lower, encryptWith, SealedKey.mk.injEq, Hex.decode?_eq_some_iff, Hex.decode?_eq_some_iff]
  rw [Hex.decode?_eq_some_iff] at hiv
  exact ⟨fun ⟨hmasked, htag⟩ => ⟨hmasked, hiv, htag⟩, fun ⟨hmasked, _, htag⟩ => ⟨hmasked, htag⟩⟩

/-- A malformed key does not decrypt: a part that is no bytes, or a vector or a tag of
another length, is none that is written. -/
theorem decrypt?_eq_none_of_malformed {key : SealedKey} (h : key.Malformed) (password : String) :
    key.decrypt? password = none := by
  rw [Option.eq_none_iff_forall_ne_some]
  intro text hsome
  obtain ⟨iv, hlength, hiv, hmasked, htag⟩ := (decrypt?_eq_some_iff_parts _ _ _).1 hsome
  rcases h with hnone | hvector | htagLength
  · exact Option.some_ne_none _ (hmasked.symm.trans hnone)
  · exact hvector iv hiv hlength
  · have hlong := Gcm.length_tag_encrypt (length_secretCipher password) iv (Bytes.ofText text)
    exact htagLength _ htag hlong

/-- Decryption accepts exactly what encryption writes. A key decrypts to a text if and only if in
lower case it is what encrypting that text writes with the vector that the key holds. What was
encrypted is therefore decrypted again, whatever the source gave, and a malformed key is not. -/
theorem decrypt?_iff_encrypted (password : String) :
    (∀ (key : SealedKey) (text : String), key.decrypt? password = some text ↔
      ∃ iv, Hex.decode? key.iv = some iv ∧ iv.length = Gcm.ivLength ∧
        ∃ e : Entropy, (e.draw Gcm.ivLength).1 = iv ∧ key.lower = (encrypt e text password).1) ∧
    (∀ (e : Entropy) (text : String), (encrypt e text password).1.decrypt? password = some text) ∧
    (∀ key : SealedKey, key.Malformed → key.decrypt? password = none) := by
  refine ⟨?_, fun e text => decrypt?_encrypt e text password,
    fun key h => decrypt?_eq_none_of_malformed h password⟩
  intro key text
  rw [decrypt?_eq_some_iff]
  constructor
  · rintro ⟨iv, hlength, hiv, hlower⟩
    -- Some source of bytes draws the vector that the key holds.
    obtain ⟨e, he⟩ := Entropy.exists_draw_eq hlength
    refine ⟨iv, hiv, hlength, e, he, ?_⟩
    rw [hlower, ← he]
    rfl
  · rintro ⟨iv, hiv, hlength, e, rfl, hlower⟩
    exact ⟨_, hlength, hiv, hlower⟩

/-- A tag that is too short: nothing is decrypted, although the vector has its length and
every part is in digits. -/
theorem decrypt?_iff_encrypted_malformed :
    Malformed ⟨"", "000102030405060708090a0b", "00"⟩ ∧
      decrypt? ⟨"", "000102030405060708090a0b", "00"⟩ "password" = none := by
  have hmalformed : Malformed ⟨"", "000102030405060708090a0b", "00"⟩ := by
    refine .inr (.inr fun tag htag => ?_)
    have hone : Hex.decode? "00" = some [0] := by decide
    rw [← Option.some.inj (hone.symm.trans htag)]
    decide
  exact ⟨hmalformed, (decrypt?_iff_encrypted "password").2.2 _ hmalformed⟩

end SealedKey
end Keyring
