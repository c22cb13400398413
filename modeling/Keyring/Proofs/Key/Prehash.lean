import Keyring.Proofs.Curve.Collision
import Keyring.Proofs.Key.Signing

/-!
# `Keyring.Proofs.Key.Prehash`: which bytes a signature of data binds

Data that is signed as it is counts as a digest. A digest is a number of 32 bytes: a longer one is
cut behind them, and a shorter one stands behind zeros. No other byte is looked at, so the
signature binds the block of 32 bytes and not the data. The theorems:

* `Ecdsa.digestNumber?_eq`: the number of a digest is that of its block.
* `signData_eq_ok_iff`: which data is signed, and how.
* `signData_eq_iff`: data with the same block has the same signature, and data with different blocks
  has different ones unless the secret numbers that were derived for them clash.
* `signData_cut`: a signature of two transfers of different amounts.
-/

set_option autoImplicit false

namespace Keyring

/-! ### Blocks -/

namespace Ecdsa

/-- The 32 bytes that stand for a digest: the first ones of a longer one, or all of a shorter one
behind zeros. -/
def block (digest : Bytes) : Bytes := List.replicate (32 - digest.length) 0 ++ digest.take 32

/-- A block has 32 bytes, whether the digest was filled up or cut. -/
theorem length_block (digest : Bytes) : (block digest).length = 32 := by
  rw [block, List.length_append, List.length_replicate, List.length_take]
  omega

/-- Zeros in front do not change the number of bytes. Short data is filled up in front, so
that it stands for the same number as a block. -/
theorem toNat_replicate_zero_append (count : Nat) (bytes : Bytes) :
    Bytes.toNat (List.replicate count 0 ++ bytes) = bytes.toNat := by
  induction count with
  | zero => rfl
  | succ count ih =>
      rw [← ih]
      rfl

/-- The number of a digest is that of its block. A digest of fewer than sixteen bytes has
none. The definition only cuts; filling up with zeros in front does not change the number. -/
theorem digestNumber?_eq (digest : Bytes) :
    digestNumber? digest = if digest.length < 16 then none else some (block digest).toNat := by
  rw [digestNumber?, block, toNat_replicate_zero_append]

/-- Digests have the same number exactly if they have the same block, because blocks have one
length. -/
theorem toNat_block_eq_iff (digest other : Bytes) :
    (block digest).toNat = (block other).toNat ↔ block digest = block other := by
  constructor
  · intro h
    exact Bytes.toNat_inj ((length_block digest).trans (length_block other).symm) h
  · intro h
    rw [h]

/-- Signatures with the same bytes are the same, since they are read back. -/
theorem Signature.bytes_inj {sig other : Signature} (hsig : sig.Reduced) (hother : other.Reduced)
    (h : sig.bytes = other.bytes) : sig = other := by
  have hread := ofBytes?_bytes hsig
  rw [h, ofBytes?_bytes hother] at hread
  exact (Option.some.inj hread).symm

end Ecdsa

/-! ### Signatures of data -/

namespace Signing

open Ecdsa (block Clash)

/-- Data is signed if it is hexadecimal and has at least 16 bytes. What is signed is the
number of its block. The last way to fail is a secret number that does not give a signature. -/
theorem signData_eq_ok_iff {key data signature : String} {secret : Secret} {bytes : Bytes}
    (hkey : Secret.ofHex key = .ok secret) (hdata : Hex.decode data = .ok bytes) :
    signData key data = .ok signature ↔ 16 ≤ bytes.length ∧
      ∃ sig, Ecdsa.sign? secret.scalar (block bytes).toNat = some sig ∧
        signature = Hex.encode sig.bytes := by
  rw [signData, hkey]
  simp only
  rw [hdata]
  simp only
  rw [signDigest, Ecdsa.digestNumber?_eq]
  -- Data that is too short is refused before anything is signed.
  by_cases hshort : bytes.length < 16
  · rw [if_pos hshort]
    constructor
    · intro h
      cases h
    · intro h
      exact absurd hshort (Nat.not_lt.2 h.1)
  · rw [if_neg hshort, Option.bind_some]
    cases Ecdsa.sign? secret.scalar (block bytes).toNat with
    | none =>
        constructor
        · intro h
          cases h
        · rintro ⟨-, sig, hsig, -⟩
          cases hsig
    | some sig =>
        constructor
        · intro h
          exact ⟨Nat.not_lt.1 hshort, sig, rfl, (Except.ok.inj h).symm⟩
        · rintro ⟨-, sig', hsig, rfl⟩
          rw [Option.some.inj hsig]

/-- Data with the block of other data that was signed has the same signature, if it is long
enough to be signed. -/
theorem signData_of_block_eq {key data other signature : String} {secret : Secret}
    {bytes bytes' : Bytes} (hkey : Secret.ofHex key = .ok secret)
    (hdata : Hex.decode data = .ok bytes) (hother : Hex.decode other = .ok bytes')
    (hblock : block bytes = block bytes') (hlong : 16 ≤ bytes'.length)
    (h : signData key data = .ok signature) : signData key other = .ok signature := by
  obtain ⟨-, sig, hsign, rfl⟩ := (signData_eq_ok_iff hkey hdata).1 h
  rw [hblock] at hsign
  exact (signData_eq_ok_iff hkey hother).2 ⟨hlong, sig, hsign, rfl⟩

/-- Data that is long enough is signed, if its secret number suits. The other two ways to
fail, a key and data that are no hex, are excluded by the hypotheses. -/
theorem exists_signData_of_suits {key data : String} {secret : Secret} {bytes : Bytes}
    (hkey : Secret.ofHex key = .ok secret) (hdata : Hex.decode data = .ok bytes)
    (hlong : 16 ≤ bytes.length) (hnonce : Nonce.Suits secret.scalar (block bytes).toNat) :
    ∃ signature, signData key data = .ok signature := by
  obtain ⟨sig, hsign⟩ := Ecdsa.exists_sign?_of_suits hnonce
  exact ⟨_, (signData_eq_ok_iff hkey hdata).2 ⟨hlong, sig, hsign, rfl⟩⟩

/-- What a signature of data binds. Two pieces of data that are signed with one private key have the
same signature if they have the same block of 32 bytes. If they have different blocks, they have
different signatures, unless the secret numbers that were derived for the two blocks clash. The
numbers are derived by hashing, so that a clash is not excluded; it is one of three relations
between them, and nothing else makes the signatures the same. -/
theorem signData_eq_iff {key data₁ data₂ signature₁ signature₂ : String} {secret : Secret}
    {bytes₁ bytes₂ : Bytes} (hkey : Secret.ofHex key = .ok secret)
    (hdata₁ : Hex.decode data₁ = .ok bytes₁) (hdata₂ : Hex.decode data₂ = .ok bytes₂)
    (h₁ : signData key data₁ = .ok signature₁) (h₂ : signData key data₂ = .ok signature₂) :
    (block bytes₁ = block bytes₂ → signature₁ = signature₂) ∧
    (block bytes₁ ≠ block bytes₂ → (signature₁ = signature₂ ↔
      ∃ k₁ k₂, Nonce.derive secret.scalar (block bytes₁).toNat = some k₁ ∧
        Nonce.derive secret.scalar (block bytes₂).toNat = some k₂ ∧
        Clash secret.scalar (block bytes₁).toNat (block bytes₂).toNat k₁ k₂)) := by
  obtain ⟨-, sig₁, hsign₁, hsignature₁⟩ := (signData_eq_ok_iff hkey hdata₁).1 h₁
  obtain ⟨hlong, sig₂, hsign₂, hsignature₂⟩ := (signData_eq_ok_iff hkey hdata₂).1 h₂
  obtain ⟨k₁, hderive₁, hwith₁⟩ := Option.bind_eq_some_iff.1 hsign₁
  obtain ⟨k₂, hderive₂, hwith₂⟩ := Option.bind_eq_some_iff.1 hsign₂
  -- Texts of signatures are as different as the signatures, because their halves are reduced.
  have hsame : signature₁ = signature₂ ↔ sig₁ = sig₂ := by
    rw [hsignature₁, hsignature₂]
    constructor
    · intro h
      exact Ecdsa.Signature.bytes_inj (sign?_spec_ofSecret hsign₁).1 (sign?_spec_ofSecret hsign₂).1
        (Hex.encode_injective h)
    · intro h
      rw [h]
  constructor
  · intro hblock
    have hsecond := signData_of_block_eq hkey hdata₁ hdata₂ hblock hlong h₁
    exact Except.ok.inj (hsecond.symm.trans h₂)
  · intro hblock
    -- Different blocks have different numbers, to which the theorem on collisions applies.
    have hnumbers := mt (Ecdsa.toNat_block_eq_iff bytes₁ bytes₂).1 hblock
    rw [hsame, Ecdsa.signature_eq_iff_clash hnumbers (Nonce.derive_inRange hderive₁)
      (Nonce.derive_inRange hderive₂) hwith₁ hwith₂]
    constructor
    · intro hclash
      exact ⟨k₁, k₂, hderive₁, hderive₂, hclash⟩
    · rintro ⟨_, _, hk₁, hk₂, hclash⟩
      rw [hderive₁] at hk₁
      rw [hderive₂] at hk₂
      rwa [Option.some.inj hk₁, Option.some.inj hk₂]

/-- A private key. -/
def bindingSecret : Secret := ⟨5, by decide, by decide⟩

/-- Sixteen bytes. -/
def sevens : Bytes := List.replicate 16 7

/-- A zero in front of sixteen bytes is not bound: shorter data is filled up with zeros
anyway. -/
theorem signData_eq_iff_padded : ∃ signature₁ signature₂,
    signData bindingSecret.hex (Hex.encode sevens) = .ok signature₁ ∧
    signData bindingSecret.hex (Hex.encode (0 :: sevens)) = .ok signature₂ ∧
    signature₁ = signature₂ := by
  have hkey := Secret.ofHex_hex bindingSecret
  have hdata (bytes : Bytes) := Hex.decode_encode bytes
  have hblock : block sevens = block (0 :: sevens) := by decide
  -- The first secret number that is derived is in range and gives a signature.
  have hsuits : Nonce.Suits bindingSecret.scalar (block sevens).toNat := by
    refine ⟨0x54ae981a9f4faa052918db1bda89ab408104e60a7a7cb3d1dc5aea224b95b8b6,
      0xf6b7d769e438815b7b5054410179daa8ca114d525059a0702cc6df5a6519b9e6,
      0xc280a61fd41b49f16f8deabe8e018efc44f29d8ed11fdbc74220dcdafda76757, ?_, ?_, ?_, ?_⟩
    all_goals decide +kernel
  obtain ⟨signature, h⟩ := exists_signData_of_suits hkey (hdata sevens) (by decide) hsuits
  have h' := signData_of_block_eq hkey (hdata sevens) (hdata (0 :: sevens)) hblock (by decide) h
  exact ⟨_, _, h, h', (signData_eq_iff hkey (hdata _) (hdata _) h h').1 hblock⟩

/-- A transfer, written in 32 bytes. -/
def transfer : Bytes := Bytes.ofText "from=alice;to=bob;nonce=7;amt=10"

/-- The same with ten times the amount. -/
def largerTransfer : Bytes := Bytes.ofText "from=alice;to=bob;nonce=7;amt=100"

/-- Two transfers that differ in the amount have the same signature, since the last digit is
the 33rd byte and is cut. -/
theorem signData_cut : transfer ≠ largerTransfer ∧ ∃ signature,
    signData bindingSecret.hex (Hex.encode transfer) = .ok signature ∧
    signData bindingSecret.hex (Hex.encode largerTransfer) = .ok signature := by
  have hkey := Secret.ofHex_hex bindingSecret
  have hdata (bytes : Bytes) := Hex.decode_encode bytes
  have hblock : block transfer = block largerTransfer := by decide +kernel
  have hsuits : Nonce.Suits bindingSecret.scalar (block transfer).toNat := by
    refine ⟨0x328a6ace26255faa2da13913eb81520aca2231a72c57e548bd434c6195d3d2a1,
      0xd843ed2823214fe22ff9d4dd6ed57127336bd9f1824363d7f7ee2e8d42ddc4cc,
      0xde48e58c2bce67f57cce8be1068bca9dc71c66cdc95cb11f63ddf7ff0a640d6e, ?_, ?_, ?_, ?_⟩
    all_goals decide +kernel
  obtain ⟨signature, h⟩ := exists_signData_of_suits hkey (hdata transfer) (by decide +kernel) hsuits
  exact ⟨by decide +kernel, signature, h,
    signData_of_block_eq hkey (hdata _) (hdata _) hblock (by decide +kernel) h⟩

end Signing
end Keyring
