import Keyring.Proofs.Bytes.Basic
import Keyring.Proofs.Cipher.Field
import Keyring.Proofs.Cipher.Gcm

/-!
# `Keyring.Proofs.Cipher.Tamper`: a sealed text that was changed in one place

A sealed text is vector, masked text and tag. `Altered` says what a change in one
place can make of it: another vector, another tag, or other bytes in one block of
the masked text. The theorems:

* `hash_ne`: masked texts that differ in one block have different hashes, unless
  the hash key is zero.
* `tag_iv_injective`, `hash_eq_of_tag_eq`: a tag determines the vector, given the
  masked text, and the hash, given the vector.
* `decrypt?_altered`: so what was changed in one place does not open.

The hash reads the masked text block by block; after the block that differs the
states differ, and each further step keeps them apart, because products by the
hash key are different for different factors (`mul_right_cancel`).
-/

set_option autoImplicit false

namespace Keyring.Gcm

/-! ### Blocks -/

/-- Byte strings of one length that differ, but in one block of sixteen bytes only. -/
structure OneBlockApart (bytes other : Bytes) : Prop where
  length_eq : other.length = bytes.length
  ne : other ≠ bytes
  same : ∃ block : Nat, ∀ place, place / 16 ≠ block → other[place]? = bytes[place]?

/-- Different blocks of one length stand for different elements. A short block is filled up
with zeros, which keeps blocks of one length apart. -/
theorem element_inj {block other : Bytes} (hlength : block.length = other.length)
    (hblock : block.length ≤ 16) (h : element block = element other) : block = other := by
  have hfull : ∀ bytes : Bytes, bytes.length ≤ 16 →
      (bytes ++ List.replicate (16 - bytes.length) 0).length = 16 := by
    intro bytes hbytes
    rw [List.length_append, List.length_replicate]
    omega
  have hlt : ∀ bytes : Bytes, bytes.length ≤ 16 →
      Bytes.toNat (bytes ++ List.replicate (16 - bytes.length) 0) < 2 ^ 128 := by
    intro bytes hbytes
    have hnat := Bytes.toNat_lt (bytes ++ List.replicate (16 - bytes.length) 0)
    rwa [hfull bytes hbytes] at hnat
  -- A full block is below 2^128, so the number is not reduced and determines the bytes.
  have hnumber := congrArg BitVec.toNat h
  rw [element, element, BitVec.toNat_ofNat, BitVec.toNat_ofNat, Nat.mod_eq_of_lt (hlt block hblock),
    Nat.mod_eq_of_lt (hlt other (hlength ▸ hblock))] at hnumber
  have hpadded := Bytes.toNat_inj (by rw [hfull block hblock, hfull other (hlength ▸ hblock)])
    hnumber
  exact (List.append_inj hpadded hlength).1

/-! ### The hash -/

section

variable {h : Element}

/-- The state of the hash after some blocks. -/
def absorb (h state : Element) (blocks : List Element) : Element :=
  blocks.foldl (fun y x => mul (y ^^^ x) h) state

/-- The same blocks keep states apart. Induction on the blocks: each step adds a block and
multiplies by the key of the hash, and both can be undone. -/
theorem absorb_injective (hh : h ≠ 0) (blocks : List Element) :
    Function.Injective fun state => absorb h state blocks := by
  induction blocks with
  | nil => exact fun _ _ heq => heq
  | cons x blocks ih =>
      intro y y' heq
      exact (BitVec.xor_left_inj x).1 (mul_right_cancel hh (ih heq))

/-- Texts that differ in one block leave one state in different states. Induction on the
number of that block: before it the states are the same, and after it the blocks are. -/
theorem absorb_ne (hh : h ≠ 0) (block : Nat) {bytes other : Bytes} (state : Element)
    (hlength : other.length = bytes.length) (hne : other ≠ bytes)
    (hsame : ∀ place, place / 16 ≠ block → other[place]? = bytes[place]?) :
    absorb h state ((other.chunks 16).map element)
      ≠ absorb h state ((bytes.chunks 16).map element) := by
  have hbytes : bytes ≠ [] := by
    rintro rfl
    exact hne (List.length_eq_zero_iff.1 hlength)
  have hother : other ≠ [] := by
    rintro rfl
    exact hbytes (List.length_eq_zero_iff.1 hlength.symm)
  rw [Bytes.chunks_cons (by decide) hbytes, Bytes.chunks_cons (by decide) hother]
  induction block generalizing bytes other state with
  | zero =>
      have hrest : other.drop 16 = bytes.drop 16 := by
        apply List.ext_getElem?
        intro place
        rw [List.getElem?_drop, List.getElem?_drop]
        exact hsame _ (by omega)
      rw [hrest]
      intro heq
      -- The first blocks lead to one state, so they are the same, and so are the rests.
      have hstates := mul_right_cancel hh (absorb_injective hh _ heq)
      have hfirst := (BitVec.xor_right_inj state).1 hstates
      have hblocks : other.take 16 = bytes.take 16 := by
        refine element_inj ?_ (List.length_take_le _ _) hfirst
        rw [List.length_take, List.length_take, hlength]
      rw [← List.take_append_drop 16 other, ← List.take_append_drop 16 bytes, hrest, hblocks] at hne
      exact hne rfl
  | succ block ih =>
      have hblocks : other.take 16 = bytes.take 16 := by
        apply List.ext_getElem?
        intro place
        rw [List.getElem?_take, List.getElem?_take]
        split
        · exact hsame _ (by omega)
        · rfl
      have hrestNe : other.drop 16 ≠ bytes.drop 16 := by
        intro hrest
        rw [← List.take_append_drop 16 other, ← List.take_append_drop 16 bytes, hrest,
          hblocks] at hne
        exact hne rfl
      have hrestLength : (other.drop 16).length = (bytes.drop 16).length := by
        rw [List.length_drop, List.length_drop, hlength]
      have hrestBytes : bytes.drop 16 ≠ [] := by
        intro hnil
        rw [hnil] at hrestLength hrestNe
        exact hrestNe (List.length_eq_zero_iff.1 hrestLength)
      have hrestOther : other.drop 16 ≠ [] := by
        intro hnil
        rw [hnil] at hrestLength
        exact hrestBytes (List.length_eq_zero_iff.1 hrestLength.symm)
      rw [hblocks, Bytes.chunks_cons (by decide) hrestBytes,
        Bytes.chunks_cons (by decide) hrestOther]
      refine ih _ hrestLength hrestNe (fun place hplace => ?_) hrestBytes hrestOther
      rw [List.getElem?_drop, List.getElem?_drop]
      exact hsame _ (by omega)

/-- Texts that differ in one block have different hashes. The last block is the length of the
text, which is the same for both. The hash is a polynomial in the hash key without a constant
term; where one coefficient differs, the difference is that coefficient times a power of the
key, and neither is zero. -/
theorem hash_ne (hh : h ≠ 0) {bytes other : Bytes} (hapart : OneBlockApart bytes other) :
    hash h other ≠ hash h bytes := by
  obtain ⟨block, hsame⟩ := hapart.same
  have hblocks := absorb_ne hh block 0 hapart.length_eq hapart.ne hsame
  intro heq
  rw [hash, hash, hashBlocks, hashBlocks, List.foldl_append, List.foldl_append,
    hapart.length_eq] at heq
  -- The last block is the length, which is the same.
  exact hblocks (absorb_injective hh [_] heq)

end

/-! ### Tags -/

section

variable {cipher : Cipher}

/-- Texts under one mask that is long enough are the same if the masked texts are. -/
theorem xor_right_cancel {text other pad : Bytes} (htext : text.length ≤ pad.length)
    (hother : other.length ≤ pad.length) (h : text.xor pad = other.xor pad) : text = other := by
  rw [← xor_xor text pad htext, ← xor_xor other pad hother, h]

/-- The tag of a masked text under one vector determines its hash: the block that masks the
hash depends on the vector alone. Adding the same mask on both sides keeps different hashes
apart. -/
theorem hash_eq_of_tag_eq (whole : ∀ b, (cipher b).length = 16) {iv masked other : Bytes}
    (h : tag cipher iv other = tag cipher iv masked) :
    hash (hashKey cipher) other = hash (hashKey cipher) masked := by
  have hpad : ∀ n, (Bytes.ofNat 16 n).length ≤ (cipher (counterBlock iv 1)).length := by
    intro n
    rw [Bytes.length_ofNat, whole]
  have hlt : ∀ u : Element, u.toNat < 256 ^ 16 := fun u => u.isLt
  rw [tag, tag] at h
  have hnumber := congrArg Bytes.toNat (xor_right_cancel (hpad _) (hpad _) h)
  rw [Bytes.toNat_ofNat (hlt _), Bytes.toNat_ofNat (hlt _)] at hnumber
  exact BitVec.toNat_inj.1 hnumber

/-- The tag of one masked text determines its vector, because the cipher is a permutation of
blocks and the hash does not depend on the vector. Two vectors give two first counter blocks,
which the cipher does not map to one. -/
theorem tag_iv_injective (whole : ∀ b, (cipher b).length = 16)
    (permutes : ∀ b b' : Bytes, b.length = 16 → b'.length = 16 → cipher b = cipher b' → b = b')
    {iv iv' masked : Bytes} (hiv : iv.length = ivLength) (hiv' : iv'.length = ivLength)
    (h : tag cipher iv' masked = tag cipher iv masked) : iv' = iv := by
  rw [tag, tag, Bytes.xor_comm, Bytes.xor_comm _ (cipher (counterBlock iv 1))] at h
  have hblocks : cipher (counterBlock iv' 1) = cipher (counterBlock iv 1) := by
    refine xor_right_cancel ?_ ?_ h <;> rw [whole, Bytes.length_ofNat]
  have hcounter : ∀ v : Bytes, v.length = ivLength → (counterBlock v 1).length = 16 := by
    intro v hv
    rw [counterBlock, List.length_append, hv, Bytes.length_ofNat]
    rfl
  exact (List.append_inj (permutes _ _ (hcounter _ hiv') (hcounter _ hiv) hblocks)
    (hiv'.trans hiv.symm)).1

/-! ### Changes in one place -/

/-- What a vector and a sealed text become by a change in one place: of the vector, of the tag or
of one block of the masked text. -/
inductive Altered (iv : Bytes) (blob : Sealed) : Bytes → Sealed → Prop where
  | iv {iv' : Bytes} (h : iv' ≠ iv) : Altered iv blob iv' blob
  | tag {tag : Bytes} (h : tag ≠ blob.tag) : Altered iv blob iv ⟨blob.masked, tag⟩
  | block {masked : Bytes} (h : OneBlockApart blob.masked masked) :
      Altered iv blob iv ⟨masked, blob.tag⟩

/-- A sealed text that was changed in one place does not open: another tag is not the one
that is computed, another masked text has another hash, and another vector another mask of
the hash. -/
theorem decrypt?_altered (whole : ∀ b, (cipher b).length = 16)
    (permutes : ∀ b b' : Bytes, b.length = 16 → b'.length = 16 → cipher b = cipher b' → b = b')
    (hkey : hashKey cipher ≠ 0) {iv iv' text : Bytes} {blob : Sealed} (hiv : iv.length = ivLength)
    (h : Altered iv (encrypt cipher iv text) iv' blob) : decrypt? cipher iv' blob = none := by
  unfold decrypt?
  split
  case isFalse => rfl
  rename_i hparts
  obtain ⟨hiv', htag⟩ := hparts
  -- The test of the tag was passed; in each case this is impossible.
  exfalso
  cases h with
  | iv hne =>
      rw [tag_encrypt] at htag
      exact hne (tag_iv_injective whole permutes hiv hiv' htag.symm)
  | tag hne =>
      rw [tag_encrypt] at hne
      exact hne htag
  | block hapart =>
      simp only [tag_encrypt] at htag
      exact hash_ne hkey hapart (hash_eq_of_tag_eq whole htag.symm)

end

end Keyring.Gcm
