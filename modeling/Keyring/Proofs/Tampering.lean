import Keyring.Proofs.Backup
import Keyring.Proofs.Cipher.Aes
import Keyring.Proofs.Cipher.Tamper

/-!
# `Keyring.Proofs.Tampering`: what was changed in one place is refused

A private key is sealed in two forms: as a sealed key under a password, and as the
first half of a backup under the system's secret. Both spell a vector and a sealed
text in hexadecimal (`SealedKey.Spells`, `Backup.Spells`), and both are opened by
`Gcm.decrypt?`. The theorems:

* `SealedKey.decrypt?_of_altered`, `Backup.import?_of_altered`: one form that
  spells something changed in one place gives nothing.
* `altered_refused`: both, together with what the unchanged forms spell.

A backup has no marks between its parts, so that another vector or tag in it has
the length of the one that it replaces; a sealed key may have parts of any length.
-/

set_option autoImplicit false

namespace Keyring

/-- The cipher of a secret is a permutation of blocks, whatever the secret is. -/
theorem secretCipher_injective (secret : String) (block other : Bytes) (hblock : block.length = 16)
    (hother : other.length = 16) (h : secretCipher secret block = secretCipher secret other) :
    block = other :=
  Aes.encrypt_injective _ hblock hother h

/-- What was changed in one place does not open under the cipher of its secret. -/
theorem secretCipher_altered {secret : String} (hkey : Gcm.hashKey (secretCipher secret) ≠ 0)
    {iv iv' plain : Bytes} {blob : Gcm.Sealed} (hiv : iv.length = Gcm.ivLength)
    (h : Gcm.Altered iv (Gcm.encrypt (secretCipher secret) iv plain) iv' blob) :
    Gcm.decrypt? (secretCipher secret) iv' blob = none :=
  Gcm.decrypt?_altered (length_secretCipher secret) (secretCipher_injective secret) hkey hiv h

/-! ### Sealed keys -/

namespace SealedKey

/-- The parts of a sealed key spell a vector and a sealed text, in digits of either case. -/
structure Spells (key : SealedKey) (iv : Bytes) (blob : Gcm.Sealed) : Prop where
  masked : Hex.decode? key.cipherText = some blob.masked
  iv : Hex.decode? key.iv = some iv
  tag : Hex.decode? key.authTag = some blob.tag

/-- A sealed key spells the vector and the text that it was made from. -/
theorem spells_encryptWith (iv : Bytes) (text password : String) :
    (encryptWith iv text password).Spells iv
      (Gcm.encrypt (secretCipher password) iv (Bytes.ofText text)) where
  masked := Hex.decode?_encode _
  iv := Hex.decode?_encode _
  tag := Hex.decode?_encode _

/-- A sealed key that was changed in one place is not decrypted, however its digits are
written. Under a hash key of zero the tag would not depend on the text, so such a key is
excluded. -/
theorem decrypt?_of_altered {password : String} (hkey : Gcm.hashKey (secretCipher password) ≠ 0)
    {iv iv' plain : Bytes} {blob : Gcm.Sealed} (hiv : iv.length = Gcm.ivLength)
    (h : Gcm.Altered iv (Gcm.encrypt (secretCipher password) iv plain) iv' blob) {key : SealedKey}
    (hspells : key.Spells iv' blob) : key.decrypt? password = none := by
  rw [decrypt?, hspells.masked, hspells.iv, hspells.tag]
  simp only [Option.bind_eq_bind, Option.bind_some]
  rw [secretCipher_altered hkey hiv h, Option.bind_none]

end SealedKey

/-! ### Backups -/

namespace Backup

/-- The first half of a backup spells a vector and a sealed text. -/
structure Spells (backup : String) (iv : Bytes) (blob : Gcm.Sealed) : Prop where
  length_iv : iv.length = Gcm.ivLength
  length_tag : blob.tag.length = Gcm.tagLength
  body : body? backup = some (iv ++ blob.tag ++ blob.masked)

/-- A backup spells the vector and the plain text that it was made from. -/
theorem spells_exportWith (d : Domain) {iv : Bytes} (hiv : iv.length = Gcm.ivLength)
    (text : String) :
    Spells (exportWith d iv text) iv (Gcm.encrypt (secretCipher d.secret) iv (d.plain text)) where
  length_iv := hiv
  length_tag := Gcm.length_tag_encrypt (length_secretCipher _) _ _
  body := by
    rw [exportWith_eq_join, body?_join d iv text (colon_not_mem_encode _)]
    rfl

/-- A backup whose first half was changed in one place is not imported, whatever its second
half is: the first half does not open. The code in the second half need not even be looked
at. -/
theorem import?_of_altered {d : Domain} (hkey : Gcm.hashKey (secretCipher d.secret) ≠ 0)
    {iv iv' plain : Bytes} {blob : Gcm.Sealed} (hiv : iv.length = Gcm.ivLength)
    (h : Gcm.Altered iv (Gcm.encrypt (secretCipher d.secret) iv plain) iv' blob) {backup : String}
    (hspells : Spells backup iv' blob) : import? d backup = none := by
  rw [Option.eq_none_iff_forall_ne_some]
  intro text himport
  obtain ⟨bodyHex, codeHex, iv₀, hsplit, hiv₀, hbody, -⟩ :=
    (import?_eq_some_iff_halves d backup text).1 himport
  -- The first half would be that of the text that came out, so that its parts would open.
  have hbytes : iv' ++ blob.tag ++ blob.masked = body d iv₀ text := by
    have hread := hspells.body
    rw [body?, hsplit, Option.bind_some, hbody] at hread
    exact (Option.some.inj hread).symm
  have hopen := (decrypt?_cut_iff d _ (d.plain text)).2 ⟨iv₀, hiv₀, hbytes⟩
  obtain ⟨hvector, htag, hmasked⟩ := cut_append hspells.length_iv hspells.length_tag blob.masked
  rw [hvector, htag, hmasked, secretCipher_altered hkey hiv h] at hopen
  cases hopen

end Backup

/-! ### Both forms -/

/-- Tampering fails closed. Under a secret whose hash key is not zero, a text is sealed with a
vector, as a sealed key and as a backup. What spells the same with another vector, with another
tag or with other bytes in one block of the masked text gives nothing. -/
theorem altered_refused {secret : String} (hkey : Gcm.hashKey (secretCipher secret) ≠ 0)
    {iv : Bytes} (hiv : iv.length = Gcm.ivLength) (text : String) :
    (∃ blob, (SealedKey.encryptWith iv text secret).Spells iv blob ∧
      ∀ iv' blob', Gcm.Altered iv blob iv' blob' →
        ∀ key : SealedKey, key.Spells iv' blob' → key.decrypt? secret = none) ∧
    ∀ d : Backup.Domain, d.secret = secret →
      ∃ blob, Backup.Spells (Backup.exportWith d iv text) iv blob ∧
        ∀ iv' blob', Gcm.Altered iv blob iv' blob' →
          ∀ backup : String, Backup.Spells backup iv' blob' → Backup.import? d backup = none := by
  constructor
  · refine ⟨_, SealedKey.spells_encryptWith iv text secret, ?_⟩
    intro iv' blob' haltered key hspells
    exact SealedKey.decrypt?_of_altered hkey hiv haltered hspells
  · rintro d rfl
    refine ⟨_, Backup.spells_exportWith d hiv text, ?_⟩
    intro iv' blob' haltered backup hspells
    exact Backup.import?_of_altered hkey hiv haltered hspells

/-- One bit of the vector was flipped. The hash key of the password is not zero, by
computation, so the theorem applies. -/
theorem altered_refused_flipped :
    Gcm.hashKey (secretCipher "password") ≠ 0 ∧ (List.replicate 12 (0 : UInt8)).length = 12 ∧
      SealedKey.decrypt? { SealedKey.encryptWith (List.replicate 12 0) "key" "password" with
        iv := "010000000000000000000000" } "password" = none := by
  have hkey : Gcm.hashKey (secretCipher "password") ≠ 0 := by decide +kernel
  refine ⟨hkey, rfl, ?_⟩
  obtain ⟨⟨blob, hspells, hrefused⟩, -⟩ :=
    altered_refused hkey (show (List.replicate 12 0).length = Gcm.ivLength from rfl) "key"
  have hiv : (1 :: List.replicate 11 0 : Bytes) ≠ List.replicate 12 0 := by decide
  have hdigits : Hex.decode? "010000000000000000000000" = some (1 :: List.replicate 11 0) := by
    decide
  exact hrefused _ _ (.iv hiv) _ ⟨hspells.masked, hdigits, hspells.tag⟩

end Keyring
