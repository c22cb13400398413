import Mathlib.Data.List.TakeWhile
import Mathlib.Data.Nat.Digits.Lemmas
import Keyring.Bytes.Base58
import Keyring.Proofs.Bytes.Basic

/-!
# `Keyring.Proofs.Bytes.Base58`: which texts stand for which bytes

In any base a row of digits is determined by two numbers: how many zeros it
begins with, and the number that it is read as. A byte string and its text in
base 58 have both numbers in common, so each is determined by the other. The
theorems:

* `Digits.row_eq`: a row of digits is the one with its zeros and its number.
* `decode?_eq_some_iff`: a text stands for some bytes exactly if it is the text
  that those bytes are written as.
* `encode_eq_iff_spells`: that text is one `1` for each leading zero byte and
  then the digits of the number.
* `length_encode_cons`: how many digits there are, if the first byte is not zero.
-/

set_option autoImplicit false

namespace Keyring

/-! ### Rows of digits -/

namespace Digits

variable {base : Nat}

/-- How many zeros a row of digits begins with. -/
def zeros (digits : List Nat) : Nat := (digits.takeWhile (· == 0)).length

/-- The number that a row of digits is read as, the most significant one first. -/
def number (base : Nat) (digits : List Nat) : Nat := Nat.ofDigits base digits.reverse

/-- The row of digits that begins with so many zeros and is read as this number. -/
def row (base zeros n : Nat) : List Nat := List.replicate zeros 0 ++ (Nat.digits base n).reverse

/-- The number of a row is computed from its first digit on: each further digit multiplies
what was read so far by the base. Readers are loops of this form. -/
theorem number_eq_foldl (base : Nat) (digits : List Nat) :
    number base digits = digits.foldl (fun n d => n * base + d) 0 := by
  rw [number, Nat.ofDigits_eq_foldr, List.foldr_reverse]
  congr 1
  funext n d
  rw [Nat.cast_id, Nat.add_comm, Nat.mul_comm]

/-- A row of `n` digits is a number below the power `n` of the base, if each of its digits is
below the base. -/
theorem number_lt (hbase : 1 < base) {digits : List Nat} (h : ∀ d ∈ digits, d < base) :
    number base digits < base ^ digits.length := by
  rw [number, ← List.length_reverse]
  exact Nat.ofDigits_lt_base_pow_length hbase fun d hd => h d (List.mem_reverse.1 hd)

/-- The zeros that a row begins with do not change its number. This is why they have to be
kept count of separately. -/
theorem number_replicate_append (count : Nat) (digits : List Nat) :
    number base (List.replicate count 0 ++ digits) = number base digits := by
  rw [number, List.reverse_append, List.reverse_replicate, Nat.ofDigits_append_replicate_zero,
    number]

/-- A row of digits begins with its zeros, and what follows them is the rest of the row:
taking and dropping the same digits gives back the row. -/
theorem replicate_zeros_append (digits : List Nat) :
    List.replicate (zeros digits) 0 ++ digits.dropWhile (· == 0) = digits := by
  have hzeros : List.replicate (zeros digits) 0 = digits.takeWhile (· == 0) := by
    refine (List.eq_replicate_iff.2 ⟨rfl, fun d hd => ?_⟩).symm
    exact beq_iff_eq.1 (List.mem_takeWhile_imp (p := (· == 0)) hd)
  rw [hzeros, List.takeWhile_append_dropWhile]

/-- A row of digits is the one with its zeros and its number. So the two together determine
the row, and a converter between bases has to carry over these two and nothing else. -/
theorem row_eq (hbase : 1 < base) {digits : List Nat} (h : ∀ d ∈ digits, d < base) :
    row base (zeros digits) (number base digits) = digits := by
  have hnumber : number base digits = Nat.ofDigits base (digits.dropWhile (· == 0)).reverse := by
    conv_lhs => rw [← replicate_zeros_append digits]
    rw [number_replicate_append, number]
  -- What follows the zeros begins with another digit, so it is the row of its number.
  have hdigits : Nat.digits base (number base digits) = (digits.dropWhile (· == 0)).reverse := by
    rw [hnumber]
    refine Nat.digits_ofDigits base hbase _ (fun d hd => ?_) fun hne => ?_
    · exact h d ((List.dropWhile_sublist _).subset (List.mem_reverse.1 hd))
    · rw [List.getLast_reverse]
      exact beq_eq_false_iff_ne.1 (List.head_dropWhile_not (fun d : Nat => d == 0) _)
  rw [row, hdigits, List.reverse_reverse, replicate_zeros_append]

/-- The digits of a number do not begin with a zero, because the digit of the highest place
of a number is not zero, and zero itself has no digits. -/
theorem dropWhile_digits (base n : Nat) :
    (Nat.digits base n).reverse.dropWhile (· == 0) = (Nat.digits base n).reverse := by
  refine List.dropWhile_eq_self_iff.2 fun hlength => ?_
  rw [← List.head_eq_getElem (List.length_pos_iff.1 hlength), List.head_reverse, beq_iff_eq]
  refine Nat.getLast_digit_ne_zero base ?_
  rintro rfl
  simp at hlength

/-- A row that was built with `count` zeros begins with that many: the digits of a number,
which follow them, do not begin with another zero. -/
theorem zeros_row (base count n : Nat) : zeros (row base count n) = count := by
  have hdigits : (Nat.digits base n).reverse.takeWhile (· == 0) = [] := by
    have hsplit :=
      List.takeWhile_append_dropWhile (p := (· == 0)) (l := (Nat.digits base n).reverse)
    rw [dropWhile_digits] at hsplit
    exact List.append_left_eq_self.1 hsplit
  have hzeros : ∀ d ∈ List.replicate count 0, (d == 0) = true := fun d hd =>
    beq_iff_eq.2 (List.eq_of_mem_replicate hd)
  rw [zeros, row, List.takeWhile_append_of_pos hzeros, hdigits, List.append_nil,
    List.length_replicate]

/-- A row that was built for a number is read as that number, since the zeros in front do not
count. -/
theorem number_row (base count n : Nat) : number base (row base count n) = n := by
  rw [row, number_replicate_append, number, List.reverse_reverse, Nat.ofDigits_digits]

/-- All members of a row are digits of its base. The zeros are, and so are those that come
from the number. -/
theorem lt_of_mem_row (hbase : 1 < base) {count n d : Nat} (h : d ∈ row base count n) :
    d < base := by
  rcases List.mem_append.1 h with hzero | hdigit
  · rw [List.eq_of_mem_replicate hzero]
    omega
  · exact Nat.digits_lt_base hbase (List.mem_reverse.1 hdigit)

/-- The last `width` digits of a number. -/
def places (base : Nat) : (width n : Nat) → List Nat
  | 0, _ => []
  | width + 1, n => places base width (n / base) ++ [n % base]

/-- Without the zeros in front these are the digits of a number that fits. Induction on the
width: the last place is the remainder, the places before it are those of the quotient. -/
theorem dropWhile_places (hbase : 1 < base) {width n : Nat} (h : n < base ^ width) :
    (places base width n).dropWhile (· == 0) = (Nat.digits base n).reverse := by
  induction width generalizing n with
  | zero =>
      obtain rfl : n = 0 := by simpa using h
      simp [places]
  | succ width ih =>
      have hdiv : n / base < base ^ width := Nat.div_lt_of_lt_mul (by rwa [← Nat.pow_succ'])
      rw [places, List.dropWhile_append, ih hdiv]
      rcases Nat.eq_zero_or_pos n with rfl | hpos
      · simp
      · rw [Nat.digits_def' hbase hpos, List.reverse_cons]
        split
        -- A number below the base is its own last digit, and that is not zero.
        · rename_i hempty
          have hquotient : n / base = 0 :=
            Nat.digits_eq_nil_iff_eq_zero.1 (List.reverse_eq_nil_iff.1 (List.isEmpty_iff.1 hempty))
          have hsmall : n < base := (Nat.div_eq_zero_iff.1 hquotient).resolve_left (by omega)
          rw [hquotient, Nat.mod_eq_of_lt hsmall]
          simp [Nat.pos_iff_ne_zero.1 hpos]
        · rfl

end Digits

/-! ### Bytes as digits -/

namespace Bytes

/-- The values of bytes, which are the digits of their number in base 256. -/
def values (bytes : Bytes) : List Nat := bytes.map UInt8.toNat

/-- The values of bytes are digits in base 256. The change of base asks for nothing else. -/
theorem lt_of_mem_values {bytes : Bytes} {v : Nat} (h : v ∈ bytes.values) : v < 256 := by
  obtain ⟨b, -, rfl⟩ := List.mem_map.1 h
  exact b.toNat_lt

/-- Byte strings with the same values are the same, because a byte is determined by its
number. -/
theorem values_injective {bytes other : Bytes} (h : bytes.values = other.values) :
    bytes = other :=
  List.map_injective_iff.2 (fun _ _ => UInt8.toNat_inj.1) h

/-- The number of a byte string is that of its values as a row in base 256. It is stated
once, so that what is proved of rows holds of byte strings. -/
theorem toNat_eq_number (bytes : Bytes) : bytes.toNat = Digits.number 256 bytes.values := by
  rw [Digits.number_eq_foldl, values, List.foldl_map]
  rfl

/-- The bytes of a number in a width are its places in base 256, zeros in front included.
Both are built from the last place on. -/
theorem values_ofNat (width n : Nat) : (ofNat width n).values = Digits.places 256 width n := by
  induction width generalizing n with
  | zero => rfl
  | succ width ih =>
      rw [Digits.places, ← ih, values, ofNat, List.map_append, List.map_singleton,
        UInt8.toNat_ofNat']
      rfl

/-- A byte is zero exactly if its value is. It is stated between the two tests, which is the
form in which the lemmas on the zeros of a mapped list ask for it. -/
theorem isZero_comp_toNat : (fun v : Nat => v == 0) ∘ UInt8.toNat = fun b => b == 0 := by
  funext b
  exact Bool.eq_iff_iff.2 (by simp [← UInt8.toNat_inj])

/-- A byte string and its values begin with the same number of zeros. -/
theorem zeros_values (bytes : Bytes) :
    Digits.zeros bytes.values = (bytes.takeWhile (· == 0)).length := by
  rw [Digits.zeros, values, List.takeWhile_map, List.length_map, isZero_comp_toNat]

/-- To drop the zero bytes in front is to drop the zero values in front. -/
theorem values_dropWhile (bytes : Bytes) :
    values (bytes.dropWhile (· == 0)) = bytes.values.dropWhile (· == 0) := by
  rw [values, values, List.dropWhile_map, isZero_comp_toNat]

/-- The first byte counts as often as all rows of bytes after it have different numbers. The
definition folds from the left, so this is the law of rows, read at the first digit. -/
theorem toNat_cons (b : UInt8) (rest : Bytes) :
    toNat (b :: rest) = b.toNat * 256 ^ rest.length + toNat rest := by
  rw [toNat_eq_number, toNat_eq_number, Digits.number, values, List.map_cons, List.reverse_cons,
    Nat.ofDigits_append, Nat.ofDigits_singleton, List.length_reverse, List.length_map,
    Digits.number, values, Nat.add_comm, Nat.mul_comm]

end Bytes

namespace Base58

/-! ### Digits of the alphabet -/

/-- The alphabet is the digits of the 58 values, in their order. Both lists are closed, so
this is computed. -/
theorem mem_alphabet_iff (c : Char) : c ∈ alphabet ↔ ∃ v < 58, digit v = c := by
  have halphabet : alphabet = (List.range 58).map digit := by decide
  simp only [halphabet, List.mem_map, List.mem_range]

/-- A character has a value exactly if it is the digit of that value. One direction is
computed for the 58 digits, and a character that has a value is among them. -/
theorem value?_eq_some_iff (c : Char) (v : Nat) : value? c = some v ↔ v < 58 ∧ digit v = c := by
  have hdigits : ∀ v < 58, value? (digit v) = some v := by decide
  constructor
  · intro h
    obtain ⟨w, hw, rfl⟩ : ∃ w < 58, digit w = c := by
      refine (mem_alphabet_iff c).1 ?_
      by_contra hc
      rw [value?, List.idxOf?_eq_none_iff.2 hc] at h
      exact absurd h nofun
    obtain rfl := Option.some.inj ((hdigits w hw).symm.trans h)
    exact ⟨hw, rfl⟩
  · rintro ⟨hv, rfl⟩
    exact hdigits v hv

/-- Characters have values exactly if they are the digits of those values. Induction on the
characters, because the reader stops at the first one that has no value. -/
theorem mapM_value?_eq_some_iff (text : List Char) (vs : List Nat) :
    text.mapM value? = some vs ↔ (∀ v ∈ vs, v < 58) ∧ vs.map digit = text := by
  induction text generalizing vs with
  | nil =>
      rw [List.mapM_nil]
      constructor
      · intro h
        obtain rfl := Option.some.inj h
        exact ⟨fun _ hv => absurd hv List.not_mem_nil, rfl⟩
      · rintro ⟨-, h⟩
        rw [List.map_eq_nil_iff.1 h]
        rfl
  | cons c text ih =>
      -- The first character has a value and so have the others, each way.
      rw [List.mapM_cons]
      constructor
      · intro h
        obtain ⟨v, hv, h⟩ := Option.bind_eq_some_iff.1 h
        obtain ⟨rest, hrest, h⟩ := Option.bind_eq_some_iff.1 h
        obtain rfl := Option.some.inj h
        obtain ⟨hlt, rfl⟩ := (value?_eq_some_iff c v).1 hv
        obtain ⟨hall, rfl⟩ := (ih rest).1 hrest
        exact ⟨List.forall_mem_cons.2 ⟨hlt, hall⟩, rfl⟩
      · rintro ⟨hall, htext⟩
        obtain ⟨v, rest, rfl, hv, hrest⟩ := List.map_eq_cons_iff.1 htext
        obtain ⟨hlt, hall⟩ := List.forall_mem_cons.1 hall
        rw [(value?_eq_some_iff c v).2 ⟨hlt, hv⟩, (ih rest).2 ⟨hall, hrest⟩]
        rfl

/-! ### Writing and reading -/

/-- The number that is read from values is that of the row of them in base 58. -/
theorem ofValues_eq_number (vs : List Nat) : ofValues vs = Digits.number 58 vs :=
  (Digits.number_eq_foldl 58 vs).symm

/-- The values that are written for a number are its places in base 58, in a width that is
fixed beforehand. -/
theorem values_eq_places (width n : Nat) : values width n = Digits.places 58 width n := by
  induction width generalizing n with
  | zero => rfl
  | succ width ih => rw [values, Digits.places, ih]

/-- A byte string is written as the row of digits with the same zeros and the same number.
The width the program writes is enough for the number, and its zeros in front are dropped. -/
theorem encodeChars_eq (bytes : Bytes) :
    encodeChars bytes
      = (Digits.row 58 (Digits.zeros bytes.values) bytes.toNat).map digit := by
  -- Two digits hold more than a byte, so the number fits into the width that is written.
  have hfits : bytes.toNat < 58 ^ (2 * bytes.length) :=
    calc bytes.toNat < 256 ^ bytes.length := Bytes.toNat_lt bytes
      _ ≤ (58 ^ 2) ^ bytes.length := Nat.pow_le_pow_left (by decide) _
      _ = 58 ^ (2 * bytes.length) := (Nat.pow_mul 58 2 bytes.length).symm
  rw [encodeChars, values_eq_places, Digits.dropWhile_places (by decide) hfits, Digits.row,
    List.map_append, List.map_replicate, Bytes.zeros_values]
  rfl

/-- Values are read as the bytes with the same zeros and the same number. As many bytes as
there are digits are enough, because a byte holds more than a digit does. -/
theorem values_ofValues {vs : List Nat} (h : ∀ v ∈ vs, v < 58) :
    (List.replicate (vs.takeWhile (· == 0)).length 0 ++
      (Bytes.ofNat vs.length (ofValues vs)).dropWhile (· == 0) : Bytes).values
      = Digits.row 256 (Digits.zeros vs) (Digits.number 58 vs) := by
  have hfits : Digits.number 58 vs < 256 ^ vs.length :=
    Nat.lt_of_lt_of_le (Digits.number_lt (by decide) h) (Nat.pow_le_pow_left (by decide) _)
  rw [Bytes.values, List.map_append, List.map_replicate, ← Bytes.values, Bytes.values_dropWhile,
    Bytes.values_ofNat, ofValues_eq_number, Digits.dropWhile_places (by decide) hfits]
  rfl

/-- Characters stand for some bytes exactly if they are what those bytes are written as. Both
directions compare the zeros and the number of two rows, which determine a row in either
base. -/
theorem decodeChars?_eq_some_iff (text : List Char) (bytes : Bytes) :
    decodeChars? text = some bytes ↔ encodeChars bytes = text := by
  have hbytes : ∀ v ∈ bytes.values, v < 256 := fun v => Bytes.lt_of_mem_values
  constructor
  · intro h
    obtain ⟨vs, hvs, rfl⟩ := Option.map_eq_some_iff.1 h
    obtain ⟨hall, rfl⟩ := (mapM_value?_eq_some_iff _ _).1 hvs
    -- The bytes are the row of this number in base 256, with as many zeros in front.
    rw [encodeChars_eq, Bytes.toNat_eq_number, values_ofValues hall, Digits.zeros_row,
      Digits.number_row, Digits.row_eq (by decide) hall]
  · rintro rfl
    -- Written in base 58, the number and the zeros are those of the bytes.
    rw [encodeChars_eq]
    have hall : ∀ v ∈ Digits.row 58 (Digits.zeros bytes.values) bytes.toNat, v < 58 :=
      fun v => Digits.lt_of_mem_row (by decide)
    rw [decodeChars?, (mapM_value?_eq_some_iff _ _).2 ⟨hall, rfl⟩, Option.map_some]
    congr 1
    apply Bytes.values_injective
    rw [values_ofValues hall, Digits.zeros_row, Digits.number_row, Bytes.toNat_eq_number,
      Digits.row_eq (by decide) hbytes]

/-- A text stands for some bytes exactly if it is what those bytes are written as. So each
byte string has one text, and a text that is read is no other spelling. -/
theorem decode?_eq_some_iff (text : String) (bytes : Bytes) :
    decode? text = some bytes ↔ encode bytes = text := by
  rw [decode?, decodeChars?_eq_some_iff, encode, ← String.toList_inj, String.toList_ofList]

/-- Written bytes are read back: they are what the bytes are written as. -/
theorem decode?_encode (bytes : Bytes) : decode? (encode bytes) = some bytes :=
  (decode?_eq_some_iff _ _).2 rfl

/-- Different bytes are written differently, because what is written is read back. -/
theorem encode_injective {bytes other : Bytes} (h : encode bytes = encode other) :
    bytes = other := by
  have hread := decode?_encode bytes
  rw [h, decode?_encode] at hread
  exact (Option.some.inj hread).symm

/-! ### The format -/

/-- A text is one `1` for each leading zero byte and then the digits of the number. -/
def Spells (text : String) (bytes : Bytes) : Prop :=
  text.toList = List.replicate (bytes.takeWhile (· == 0)).length '1' ++
    (Nat.digits 58 bytes.toNat).reverse.map digit

/-- What bytes are written as spells them: a digit of value zero for each zero byte in front,
and then the digits of their number. -/
theorem spells_encode (bytes : Bytes) : Spells (encode bytes) bytes := by
  rw [Spells, encode, String.toList_ofList, encodeChars_eq, Digits.row, List.map_append,
    List.map_replicate, Bytes.zeros_values]
  rfl

/-- Bytes are written as the text that spells them. The format determines the text, so the
writer gives the one text that there is. The specification counts leading zeros and compares
one number, and does not mention the division with which the writer works. -/
theorem encode_eq_iff_spells (bytes : Bytes) (text : String) :
    encode bytes = text ↔ Spells text bytes := by
  constructor
  · rintro rfl
    exact spells_encode bytes
  · intro h
    exact String.toList_inj.1 ((spells_encode bytes).trans h.symm)

/-- What is written are digits of the alphabet, since every member of a row in base 58 is
below 58. -/
theorem mem_alphabet_of_mem_encode {bytes : Bytes} {c : Char} (h : c ∈ (encode bytes).toList) :
    c ∈ alphabet := by
  rw [encode, String.toList_ofList, encodeChars_eq] at h
  obtain ⟨v, hv, rfl⟩ := List.mem_map.1 h
  exact (mem_alphabet_iff _).2 ⟨v, Digits.lt_of_mem_row (by decide) hv, rfl⟩

/-- Each digit is one byte of the text, because the alphabet is ASCII. The length in
characters and the length in bytes, which is what the program compares, are the same. -/
theorem utf8ByteSize_encode (bytes : Bytes) :
    (encode bytes).utf8ByteSize = (encode bytes).toList.length := by
  have hascii : ∀ v < 58, (digit v).toNat < 128 := by decide
  have hsingle : ∀ c ∈ (encode bytes).toList, (String.utf8EncodeChar c).length = 1 := by
    intro c hc
    obtain ⟨v, hv, rfl⟩ := (mem_alphabet_iff c).1 (mem_alphabet_of_mem_encode hc)
    rw [Bytes.utf8EncodeChar_of_ascii (hascii v hv)]
    rfl
  show (Bytes.ofText (encode bytes)).length = _
  rw [Bytes.ofText_eq_flatMap, List.length_flatMap, List.map_congr_left hsingle, List.map_const',
    List.sum_replicate_nat, Nat.mul_one]

/-- How many digits are written for bytes of which the first is not zero: there are no zeros
to be kept, so it is the number of digits of their number. -/
theorem length_encode_cons {b : UInt8} (hb : b ≠ 0) (rest : Bytes) {count : Nat}
    (hlow : 58 ^ count ≤ Bytes.toNat (b :: rest))
    (hhigh : Bytes.toNat (b :: rest) < 58 ^ (count + 1)) :
    (encode (b :: rest)).toList.length = count + 1 := by
  have hzeros : (b :: rest).takeWhile (· == 0) = [] :=
    List.takeWhile_cons_of_neg (by simpa using hb)
  have hmore := (Nat.lt_digits_length_iff (by decide : 1 < 58) _).2 hlow
  have hless := (Nat.digits_length_le_iff (by decide : 1 < 58) _).2 hhigh
  rw [spells_encode, hzeros, List.length_append, List.length_map, List.length_reverse,
    List.length_replicate, List.length_nil]
  omega

end Base58
end Keyring
