import Keyring.Bytes.Hex
import Keyring.Proofs.Bytes.Basic

/-!
# `Keyring.Proofs.Bytes.Hex`: which texts spell which bytes

`lower` takes the letters of hexadecimal digits to lower case. The theorems:

* `decode_eq_ok_iff`: a text spells some bytes exactly if in lower case it is
  the text that those bytes are written as.
* `decode_encode`, `encode_injective`: written bytes are read back.

The reader looks at the UTF-8 bytes of a text two by two, so the equivalence is
proved for bytes first, and carried to texts by `ofText_lower` and
`ofText_encode`.
-/

set_option autoImplicit false

namespace Keyring.Hex

/-! ### Lower case -/

/-- A hexadecimal digit in lower case; every other character as it is. -/
def lowerChar (c : Char) : Char :=
  if 65 ≤ c.toNat ∧ c.toNat ≤ 70 then Char.ofNat (c.toNat + 32) else c

/-- A text with its hexadecimal digits in lower case. -/
def lower (text : String) : String := String.ofList (text.toList.map lowerChar)

/-- The byte of a hexadecimal digit in lower case; every other byte as it is. -/
def lowerByte (b : UInt8) : UInt8 :=
  if 65 ≤ b.toNat ∧ b.toNat ≤ 70 then UInt8.ofNat (b.toNat + 32) else b

/-- The number of a byte in lower case: the six capital digits move by 32 and no other byte
changes. -/
theorem toNat_lowerByte (b : UInt8) :
    (lowerByte b).toNat = if 65 ≤ b.toNat ∧ b.toNat ≤ 70 then b.toNat + 32 else b.toNat := by
  unfold lowerByte
  split
  · rw [UInt8.toNat_ofNat']
    omega
  · rfl

/-- A small number is the number of the character it makes. It is checked for all ASCII
numbers, because the general fact asks about surrogates. -/
theorem toNat_ofNat_of_le {n : Nat} (h : n ≤ 127) : (Char.ofNat n).toNat = n := by
  have hall : ∀ k < 128, (Char.ofNat k).toNat = k := by decide
  exact hall n (by omega)

/-- A character is taken to lower case byte by byte: the six letters that change are ASCII,
and other characters have no byte that would change. -/
theorem utf8EncodeChar_lowerChar (c : Char) :
    String.utf8EncodeChar (lowerChar c) = (String.utf8EncodeChar c).map lowerByte := by
  by_cases hascii : c.toNat < 128
  · have hlower : (lowerChar c).toNat
        = if 65 ≤ c.toNat ∧ c.toNat ≤ 70 then c.toNat + 32 else c.toNat := by
      unfold lowerChar
      split
      · exact toNat_ofNat_of_le (by omega)
      · rfl
    -- Both sides are compared as numbers, on which the two conditions are the same.
    have hbyte : (UInt8.ofNat c.toNat).toNat = c.toNat := by
      rw [UInt8.toNat_ofNat']
      omega
    rw [Bytes.utf8EncodeChar_of_ascii hascii, List.map_singleton,
      Bytes.utf8EncodeChar_of_ascii (by rw [hlower]; split <;> omega)]
    congr 1
    apply UInt8.toNat_inj.1
    rw [toNat_lowerByte, hbyte, UInt8.toNat_ofNat', hlower]
    split <;> omega
  · -- Beyond ASCII no byte of the character is a digit.
    have hsame : lowerChar c = c := if_neg (by omega)
    have hbytes : ∀ b ∈ String.utf8EncodeChar c, lowerByte b = id b := by
      intro b hb
      have := Bytes.not_ascii_of_mem_utf8EncodeChar (by omega) hb
      exact if_neg (by omega)
    rw [hsame, List.map_congr_left hbytes, List.map_id]

/-- A text is taken to lower case byte by byte. The reader works on bytes, so that is where
the case of digits has to be compared. Characters outside of ASCII are not changed by either
side, because none of their bytes is a letter. -/
theorem ofText_lower (text : String) :
    Bytes.ofText (lower text) = (Bytes.ofText text).map lowerByte := by
  rw [Bytes.ofText_eq_flatMap, Bytes.ofText_eq_flatMap, lower, String.toList_ofList,
    List.flatMap_map, List.map_flatMap]
  congr 1
  funext c
  exact utf8EncodeChar_lowerChar c

/-! ### Digits -/

/-- The byte of a digit. -/
def digitByte (n : Nat) : UInt8 := UInt8.ofNat (digit n).toNat

/-- The bytes of the two digits of a byte. -/
def pairBytes (b : UInt8) : Bytes := [digitByte (b.toNat / 16), digitByte (b.toNat % 16)]

/-- The number of the character that stands for a value: the ten digits begin at 48 and the
letters at 97, which is 87 more than ten less. -/
theorem toNat_digit {n : Nat} (h : n < 16) :
    (digit n).toNat = if n < 10 then 48 + n else 87 + n := by
  unfold digit
  split <;> exact toNat_ofNat_of_le (by omega)

/-- The byte of a digit has the number of its character, because digits are ASCII and fit
into one byte. -/
theorem toNat_digitByte {n : Nat} (h : n < 16) :
    (digitByte n).toNat = if n < 10 then 48 + n else 87 + n := by
  rw [digitByte, UInt8.toNat_ofNat', toNat_digit h]
  split <;> omega

/-- The value of a digit is below sixteen, in each of the three ranges of bytes that have
one. -/
theorem value?_lt {b : UInt8} {n : Nat} (h : value? b = some n) : n < 16 := by
  unfold value? at h
  simp only at h
  split at h
  · have := Option.some.inj h
    omega
  · split at h
    · have := Option.some.inj h
      omega
    · split at h
      · have := Option.some.inj h
        omega
      · exact absurd h nofun

/-- A byte has a value as a digit exactly if in lower case it is the digit of that value. The
proof goes through the ranges of bytes, and in each it is a fact of arithmetic. -/
theorem value?_eq_some_iff {b : UInt8} {n : Nat} (hn : n < 16) :
    value? b = some n ↔ lowerByte b = digitByte n := by
  rw [← UInt8.toNat_inj, toNat_lowerByte, toNat_digitByte hn]
  unfold value?
  simp only
  -- The ranges of bytes: ten digits, six small letters, six capital ones, and all others.
  split
  · rw [Option.some.injEq, if_neg (by omega)]
    split <;> omega
  · split
    · rw [Option.some.injEq, if_neg (by omega)]
      split <;> omega
    · split
      · rw [Option.some.injEq]
        split <;> omega
      · simp only [reduceCtorEq, false_iff]
        split <;> omega

/-- The bytes of written bytes are those of their digits, two for each byte, since each digit
is ASCII. The reader works on the bytes of a text, so this is where the writer meets it. -/
theorem ofText_encode (bytes : Bytes) : Bytes.ofText (encode bytes) = bytes.flatMap pairBytes := by
  rw [Bytes.ofText_eq_flatMap, encode, String.toList_ofList, List.flatMap_assoc]
  congr 1
  funext b
  have hb : b.toNat < 256 := b.toNat_lt
  have hascii : ∀ n < 16, (digit n).toNat < 128 := by
    intro n hn
    rw [toNat_digit hn]
    split <;> omega
  show String.utf8EncodeChar (digit (b.toNat / 16)) ++
    (String.utf8EncodeChar (digit (b.toNat % 16)) ++ []) = _
  rw [Bytes.utf8EncodeChar_of_ascii (hascii _ (by omega)),
    Bytes.utf8EncodeChar_of_ascii (hascii _ (by omega))]
  rfl

/-- There are two digits for each byte. So the width of a key as text follows from its width
in bytes. -/
theorem length_flatMap_pairBytes (bytes : Bytes) :
    (bytes.flatMap pairBytes).length = 2 * bytes.length := by
  induction bytes with
  | nil => rfl
  | cons b bytes ih =>
      rw [List.flatMap_cons, List.length_append, List.length_cons, ih]
      show 2 + 2 * bytes.length = _
      omega

/-! ### Reading -/

/-- Two digits spell a byte exactly if in lower case they are the byte's own digits. A byte
is sixteen times its high half and its low half, and the halves are determined by it. -/
theorem pair_eq_iff {high low b : UInt8} :
    [lowerByte high, lowerByte low] = pairBytes b ↔
      ∃ h l, value? high = some h ∧ value? low = some l ∧ UInt8.ofNat (16 * h + l) = b := by
  have hb : b.toNat < 256 := b.toNat_lt
  constructor
  · intro h
    obtain ⟨hhigh, hrest⟩ := List.cons.inj h
    obtain ⟨hlow, -⟩ := List.cons.inj hrest
    -- The two digits are the quotient and the remainder of the byte by sixteen.
    refine ⟨b.toNat / 16, b.toNat % 16, (value?_eq_some_iff (by omega)).2 hhigh,
      (value?_eq_some_iff (by omega)).2 hlow, ?_⟩
    apply UInt8.toNat_inj.1
    rw [UInt8.toNat_ofNat']
    omega
  · rintro ⟨h, l, hhigh, hlow, rfl⟩
    have hh := value?_lt hhigh
    have hl := value?_lt hlow
    have hdiv : (UInt8.ofNat (16 * h + l)).toNat / 16 = h := by
      rw [UInt8.toNat_ofNat']
      omega
    have hmod : (UInt8.ofNat (16 * h + l)).toNat % 16 = l := by
      rw [UInt8.toNat_ofNat']
      omega
    rw [pairBytes, hdiv, hmod, (value?_eq_some_iff hh).1 hhigh, (value?_eq_some_iff hl).1 hlow]

/-- What two digits and the rest are read as: a byte that the two spell, and what the rest is
read as. The position only enters the errors, so it does not matter here. -/
theorem decodeAt_cons_cons_eq_ok_iff (position : Nat) (high low : UInt8) (rest bytes : Bytes) :
    decodeAt position (high :: low :: rest) = .ok bytes ↔
      ∃ b tail, bytes = b :: tail ∧ [lowerByte high, lowerByte low] = pairBytes b ∧
        decodeAt (position + 2) rest = .ok tail := by
  rw [decodeAt]
  constructor
  · intro h
    split at h
    · exact absurd h nofun
    · exact absurd h nofun
    · rename_i v w hhigh hlow
      -- Both digits have values, so the result depends on the rest.
      cases hrest : decodeAt (position + 2) rest with
      | error e =>
          rw [hrest] at h
          exact absurd h nofun
      | ok tail =>
          rw [hrest] at h
          exact ⟨_, tail, (Except.ok.inj h).symm, pair_eq_iff.2 ⟨v, w, hhigh, hlow, rfl⟩, rfl⟩
  · rintro ⟨b, tail, rfl, hpair, hrest⟩
    obtain ⟨v, w, hhigh, hlow, rfl⟩ := pair_eq_iff.1 hpair
    rw [hhigh, hlow, hrest]
    rfl

/-- An even number of digits spell some bytes exactly if in lower case they are the bytes'
own digits, wherever the reading began. Induction on the number of pairs. -/
theorem decodeAt_eq_ok_iff (pairs position : Nat) (digits bytes : Bytes)
    (hlength : digits.length = 2 * pairs) :
    decodeAt position digits = .ok bytes ↔ digits.map lowerByte = bytes.flatMap pairBytes := by
  induction pairs generalizing position digits bytes with
  | zero =>
      obtain rfl : digits = [] := List.length_eq_zero_iff.1 (by omega)
      rw [decodeAt, Except.ok.injEq, List.map_nil]
      -- Only the empty list of bytes has no digits.
      · constructor
        · rintro rfl
          rfl
        · intro h
          have hnone := congrArg List.length h
          rw [length_flatMap_pairBytes, List.length_nil] at hnone
          exact (List.length_eq_zero_iff.1 (by omega)).symm
      · nofun
  | succ pairs ih =>
      match digits, hlength with
      | high :: low :: rest, hlength =>
        have hrest : rest.length = 2 * pairs := by
          simp only [List.length_cons] at hlength
          omega
        rw [decodeAt_cons_cons_eq_ok_iff, List.map_cons, List.map_cons]
        constructor
        · rintro ⟨b, tail, rfl, hpair, htail⟩
          rw [List.flatMap_cons, ← hpair, ← (ih (position + 2) rest tail hrest).1 htail]
          rfl
        · intro h
          cases bytes with
          | nil => exact absurd h nofun
          | cons b tail =>
              -- Both sides begin with two bytes, so the rest of one is the rest of the other.
              have hsplit : [lowerByte high, lowerByte low] ++ rest.map lowerByte
                  = pairBytes b ++ tail.flatMap pairBytes := h
              obtain ⟨hpair, htail⟩ := List.append_inj hsplit rfl
              exact ⟨b, tail, rfl, hpair, (ih (position + 2) rest tail hrest).2 htail⟩

/-- A text spells some bytes exactly if in lower case it is the text they are written as. A
text of odd length is refused, and it is no text that bytes are written as either. -/
theorem decode_eq_ok_iff (text : String) (bytes : Bytes) :
    decode text = .ok bytes ↔ lower text = encode bytes := by
  -- Texts are compared by their bytes, which is what the reader looks at.
  have hbytes : lower text = encode bytes ↔
      (Bytes.ofText text).map lowerByte = bytes.flatMap pairBytes := by
    rw [← ofText_lower, ← ofText_encode]
    exact ⟨fun h => congrArg Bytes.ofText h, Bytes.ofText_injective⟩
  rw [hbytes, decode]
  split
  · -- Written bytes have an even number of digits.
    rename_i hodd
    simp only [reduceCtorEq, false_iff]
    intro h
    have hlength := congrArg List.length h
    rw [List.length_map, length_flatMap_pairBytes] at hlength
    omega
  · exact decodeAt_eq_ok_iff ((Bytes.ofText text).length / 2) 0 _ _ (by omega)

/-- A text spells some bytes exactly if in lower case it is the text they are written as. The
same for the reader that keeps no error. -/
theorem decode?_eq_some_iff (text : String) (bytes : Bytes) :
    decode? text = some bytes ↔ lower text = encode bytes := by
  rw [← decode_eq_ok_iff, decode?]
  cases decode text with
  | error e => exact ⟨nofun, nofun⟩
  | ok read => exact ⟨fun h => congrArg Except.ok (Option.some.inj h),
      fun h => congrArg some (Except.ok.inj h)⟩

/-! ### Written bytes -/

/-- Two digits are written for each byte, so the length tells how many bytes were written. -/
theorem length_encode (bytes : Bytes) : (encode bytes).toList.length = 2 * bytes.length := by
  rw [encode, String.toList_ofList]
  induction bytes with
  | nil => rfl
  | cons b bytes ih =>
      rw [List.flatMap_cons, List.length_append, ih, List.length_cons]
      show 2 + 2 * bytes.length = 2 * (bytes.length + 1)
      omega

/-- What is written are digits of lower case: each character is the digit of a value below
sixteen. -/
theorem mem_digits_of_mem_encode {bytes : Bytes} {c : Char} (h : c ∈ (encode bytes).toList) :
    c ∈ "0123456789abcdef".toList := by
  have hdigit : ∀ n < 16, digit n ∈ "0123456789abcdef".toList := by decide
  rw [encode, String.toList_ofList, List.mem_flatMap] at h
  obtain ⟨b, -, hb⟩ := h
  have hlt : b.toNat < 256 := b.toNat_lt
  rcases List.mem_cons.1 hb with rfl | hlow
  · exact hdigit _ (by omega)
  · rw [List.mem_singleton.1 hlow]
    exact hdigit _ (by omega)

/-- The digits of bytes are in lower case already, because no digit that is written is a
capital letter. -/
theorem lower_encode (bytes : Bytes) : lower (encode bytes) = encode bytes := by
  -- No digit is a capital letter.
  have hdigit : ∀ n < 16, lowerByte (digitByte n) = digitByte n := by decide
  apply Bytes.ofText_injective
  rw [ofText_lower, ofText_encode, List.map_flatMap]
  congr 1
  funext b
  have hb : b.toNat < 256 := b.toNat_lt
  show [lowerByte (digitByte (b.toNat / 16)), lowerByte (digitByte (b.toNat % 16))] = _
  rw [hdigit _ (by omega), hdigit _ (by omega)]
  rfl

/-- Written bytes are read back, since what is written is in lower case already. It is the
writer's half of the law that reading accepts what is written and no more than a change of
case. -/
theorem decode_encode (bytes : Bytes) : decode (encode bytes) = .ok bytes :=
  (decode_eq_ok_iff _ _).2 (lower_encode bytes)

/-- Written bytes are read back. The same for the reader that keeps no error. -/
theorem decode?_encode (bytes : Bytes) : decode? (encode bytes) = some bytes :=
  (decode?_eq_some_iff _ _).2 (lower_encode bytes)

/-- Different bytes are written differently, because what is written is read back. -/
theorem encode_injective {bytes other : Bytes} (h : encode bytes = encode other) :
    bytes = other := by
  have hread := decode_encode bytes
  rw [h, decode_encode] at hread
  exact (Except.ok.inj hread).symm

end Keyring.Hex
