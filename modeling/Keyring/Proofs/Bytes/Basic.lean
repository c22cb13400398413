import Mathlib.Algebra.Group.Nat.Defs
import Mathlib.Data.List.Induction
import Keyring.Bytes.Basic

/-!
# `Keyring.Proofs.Bytes.Basic`: numbers and texts as bytes

The theorems:

* `toNat_ofNat`, `ofNat_toNat`: a number and its big-endian bytes determine
  each other, as long as the number fits.
* `chunks_cons`: the pieces of a byte string are its first one and those of the rest.
* `ofText_eq_flatMap`: the bytes of a text are those of its characters in turn.
* `ofText_injective`: texts with the same bytes are the same.
-/

set_option autoImplicit false

namespace Keyring.Bytes

/-! ### Numbers -/

/-- The last byte is the lowest place of the number. The proofs on numbers of bytes go by
induction from the end because of it. -/
theorem toNat_append_singleton (bytes : Bytes) (b : UInt8) :
    toNat (bytes ++ [b]) = toNat bytes * 256 + b.toNat := by
  unfold toNat
  rw [List.foldl_append]
  rfl

/-- A number that fits is read back from its bytes. A greater one would lose its highest
places, so the bound is needed. Private keys, halves of signatures and coordinates are all
below the order or the modulus, which 32 bytes hold. -/
theorem toNat_ofNat {width n : Nat} (h : n < 256 ^ width) : toNat (ofNat width n) = n := by
  induction width generalizing n with
  | zero =>
      have hzero : n = 0 := by
        rw [Nat.pow_zero] at h
        omega
      rw [hzero]
      rfl
  | succ width ih =>
      have hdiv : n / 256 < 256 ^ width := by
        rw [Nat.pow_succ] at h
        exact Nat.div_lt_of_lt_mul (by omega)
      -- The last byte is the remainder, and those before it are the quotient's.
      show toNat (ofNat width (n / 256) ++ [UInt8.ofNat n]) = n
      rw [toNat_append_singleton, ih hdiv, UInt8.toNat_ofNat']
      omega

/-- Bytes are read back from their number and their length. The length has to be given
because zeros in front do not show in the number. With `toNat_ofNat` numbers below a bound
and byte strings of one length are the same thing. -/
theorem ofNat_toNat (bytes : Bytes) : ofNat bytes.length (toNat bytes) = bytes := by
  induction bytes using List.reverseRecOn with
  | nil => rfl
  | append_singleton bytes b ih =>
      have hb : b.toNat < 256 := b.toNat_lt
      have hdiv : (toNat bytes * 256 + b.toNat) / 256 = toNat bytes := by omega
      have hlast : UInt8.ofNat (toNat bytes * 256 + b.toNat) = b := by
        apply UInt8.toNat_inj.1
        rw [UInt8.toNat_ofNat']
        omega
      rw [List.length_append, List.length_singleton, toNat_append_singleton]
      show ofNat bytes.length ((toNat bytes * 256 + b.toNat) / 256) ++
        [UInt8.ofNat (toNat bytes * 256 + b.toNat)] = _
      rw [hdiv, hlast, ih]

/-- Byte strings of one length are the same if their numbers are, since the length and the
number give the bytes back. -/
theorem toNat_inj {bytes other : Bytes} (hlength : bytes.length = other.length)
    (h : toNat bytes = toNat other) : bytes = other := by
  rw [← ofNat_toNat bytes, ← ofNat_toNat other, hlength, h]

/-- The number of a byte string is below 256 to the power of its length. Induction from the
end: the last byte adds less than the place it stands in. -/
theorem toNat_lt (bytes : Bytes) : toNat bytes < 256 ^ bytes.length := by
  induction bytes using List.reverseRecOn with
  | nil => exact Nat.one_pos
  | append_singleton bytes b ih =>
      have hb : b.toNat < 256 := b.toNat_lt
      rw [toNat_append_singleton, List.length_append, List.length_singleton, Nat.pow_succ]
      omega

/-! ### Masks -/

/-- It makes no difference which of the two byte strings is the mask. Of different lengths
the shorter one decides in both orders. -/
theorem xor_comm (left right : Bytes) : xor left right = xor right left :=
  List.zipWith_comm_of_comm UInt8.xor_comm

/-! ### Pieces -/

/-- The pieces of a byte string are its first one and those of the rest. The definition
counts the pieces beforehand, and this is the recursion that proofs go by. -/
theorem chunks_cons {size : Nat} (hsize : 0 < size) {bytes : Bytes} (hbytes : bytes ≠ []) :
    chunks size bytes = bytes.take size :: chunks size (bytes.drop size) := by
  have hpositive : 0 < bytes.length := List.length_pos_iff.2 hbytes
  have hcount : (bytes.length + size - 1) / size
      = ((bytes.drop size).length + size - 1) / size + 1 := by
    rw [List.length_drop, ← Nat.add_div_right _ hsize]
    -- A last piece that is too short is counted like a whole one.
    by_cases hle : size ≤ bytes.length
    · congr 1
      omega
    · rw [Nat.div_eq_of_lt_le (k := 1) (by omega) (by omega),
        Nat.div_eq_of_lt_le (k := 1) (by omega) (by omega)]
  rw [chunks, hcount, List.range_succ_eq_map, List.map_cons, List.map_map, Nat.mul_zero,
    List.drop_zero, chunks]
  congr 1
  -- A later piece begins one size further on.
  refine List.map_congr_left fun i _ => ?_
  show (bytes.drop (size * (i + 1))).take size = ((bytes.drop size).drop (size * i)).take size
  rw [List.drop_drop, Nat.mul_succ, Nat.add_comm]

/-! ### Texts -/

/-- The bytes of a text are those of its characters in turn. Facts about texts follow from
facts about one character by it. The library defines the bytes of a text by its byte array,
which this lemma opens. -/
theorem ofText_eq_flatMap (text : String) :
    ofText text = text.toList.flatMap String.utf8EncodeChar := by
  unfold ofText
  rw [← String.utf8Encode_toList]
  unfold List.utf8Encode
  rw [List.toList_data_toByteArray]

/-- Texts with the same bytes are the same, because the bytes of a text are read back as that
text. -/
theorem ofText_injective {text other : String} (h : ofText text = ofText other) :
    text = other := by
  -- Bytes that come from a text are read back as that text.
  have hread := toText?_ofText text
  rw [h, toText?_ofText] at hread
  exact (Option.some.inj hread).symm

/-- An ASCII character is one byte, its number. This is the first branch of the encoding. -/
theorem utf8EncodeChar_of_ascii {c : Char} (h : c.toNat < 128) :
    String.utf8EncodeChar c = [UInt8.ofNat c.toNat] := by
  unfold String.utf8EncodeChar
  exact if_pos (Nat.le_of_lt_succ h)

/-- The bytes of other characters are beyond ASCII: the first one begins with two set bits
and each of the others with one. So an ASCII byte of a text is always a character of its own. -/
theorem not_ascii_of_mem_utf8EncodeChar {c : Char} (h : 128 ≤ c.toNat) {b : UInt8}
    (hb : b ∈ String.utf8EncodeChar c) : 128 ≤ b.toNat := by
  have hval : c.val.toNat < 0x110000 := by
    rcases c.valid with hlow | hhigh
    · have : c.val.toNat < 0xD800 := hlow
      omega
    · exact hhigh.2
  have hc : 128 ≤ c.val.toNat := h
  unfold String.utf8EncodeChar at hb
  simp only at hb
  rw [if_neg (by omega)] at hb
  -- Two, three or four bytes, each of them with its highest bit set.
  split at hb
  · simp only [List.mem_cons, List.not_mem_nil, or_false] at hb
    rcases hb with rfl | rfl <;> rw [UInt8.toNat_ofNat'] <;> omega
  · split at hb
    · simp only [List.mem_cons, List.not_mem_nil, or_false] at hb
      rcases hb with rfl | rfl | rfl <;> rw [UInt8.toNat_ofNat'] <;> omega
    · simp only [List.mem_cons, List.not_mem_nil, or_false] at hb
      rcases hb with rfl | rfl | rfl | rfl <;> rw [UInt8.toNat_ofNat'] <;> omega

end Keyring.Bytes
