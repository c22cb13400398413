import Keyring.Proofs.Bytes.Base58
import Keyring.Proofs.Bytes.Hex

/-!
# `Keyring.Proofs.Bytes.Numeral`: hexadecimal texts as numbers

A text of hexadecimal digits is read in two ways: two digits at a time as bytes,
or as one number in base 16. `Spells` is the second reading, apart from the
reader of bytes. The theorems:

* `Spells.lower_eq_iff`: texts of one width spell the same number exactly if
  they are the same in lower case.
* `spells_encode`: what bytes are written as spells their number.
* `decode_eq_ok_iff_spells`: so a text spells some bytes exactly if it has two
  digits for each of them and spells their number.

The width and the number fix the values of the digits
(`Nat.ofDigits_inj_of_len_eq`), and a value fixes its digit up to the case.
-/

set_option autoImplicit false

namespace Keyring.Hex

/-! ### Digits -/

/-- The digits of lower case by value. -/
def smallDigits : List Char := "0123456789abcdef".toList

/-- The digits of either case. -/
def digits : List Char := smallDigits ++ "ABCDEF".toList

/-- The value of a digit of either case. -/
def digitValue (c : Char) : Nat := smallDigits.idxOf (lowerChar c)

/-- The value of a digit is below sixteen. There are 22 digits, and it is checked for each. -/
theorem digitValue_lt {c : Char} (h : c ∈ digits) : digitValue c < 16 := by
  have hall : digits.all (fun c => digitValue c < 16) = true := by decide
  exact of_decide_eq_true (List.all_eq_true.1 hall c h)

/-- A digit in lower case is the digit of its value. Two digits that differ in case alone
have the same value, so the digit of a value can only be one of them. -/
theorem digit_digitValue {c : Char} (h : c ∈ digits) : digit (digitValue c) = lowerChar c := by
  have hall : digits.all (fun c => digit (digitValue c) = lowerChar c) = true := by decide
  exact of_decide_eq_true (List.all_eq_true.1 hall c h)

/-- The digit of a value is read as that value. There are only sixteen of them, so all are
tried. -/
theorem digitValue_digit {n : Nat} (h : n < 16) : digitValue (digit n) = n := by
  have hall : ∀ n < 16, digitValue (digit n) = n := by decide
  exact hall n h

/-- The digit of a value is one of lower case. The reader takes digits of both cases, the
writer knows only these. -/
theorem digit_mem_smallDigits {n : Nat} (h : n < 16) : digit n ∈ smallDigits := by
  have hall : ∀ n < 16, digit n ∈ smallDigits := by decide
  exact hall n h

/-- Only a digit is a digit of lower case when it is taken to lower case. A character that
changes is one of the six capital letters, and one that does not is a small digit itself. -/
theorem mem_digits_of_lowerChar {c : Char} (h : lowerChar c ∈ smallDigits) : c ∈ digits := by
  unfold lowerChar at h
  split at h
  · rename_i hcapital
    -- The characters with these numbers are the six capital letters.
    have hall : ∀ n < 71, 65 ≤ n → Char.ofNat n ∈ digits := by decide
    have hmem := hall c.toNat (by omega) hcapital.1
    rwa [Char.ofNat_toNat] at hmem
  · exact List.mem_append_left _ h

/-! ### Numbers -/

/-- Characters are so many digits, of either case, of a number. -/
structure Spells (text : List Char) (width number : Nat) : Prop where
  length : text.length = width
  digits : ∀ c ∈ text, c ∈ digits
  number : Digits.number 16 (text.map digitValue) = number

variable {text other : List Char} {width number : Nat}

/-- The values of digits are digits in base 16, so what is known of rows of digits applies to
them. -/
theorem Spells.values_lt (h : Spells text width number) : ∀ v ∈ text.map digitValue, v < 16 := by
  intro v hv
  obtain ⟨c, hc, rfl⟩ := List.mem_map.1 hv
  exact digitValue_lt (h.digits c hc)

/-- A number that is spelled in some width is below that power of sixteen. -/
theorem Spells.number_lt (h : Spells text width number) : number < 16 ^ width := by
  rw [← h.number, ← h.length, ← List.length_map digitValue]
  exact Digits.number_lt (by decide) h.values_lt

/-- In lower case the digits are those of their values. The values are what the number
determines, so the text is determined up to case. -/
theorem Spells.map_lowerChar (h : Spells text width number) :
    text.map lowerChar = (text.map digitValue).map digit := by
  rw [List.map_map]
  exact List.map_congr_left fun c hc => (digit_digitValue (h.digits c hc)).symm

/-- Characters that are the same in lower case spell the same number: they are as many, they
are digits, and each has the value of the one in its place. -/
theorem Spells.of_map_lowerChar_eq (h : Spells text width number)
    (hlower : other.map lowerChar = text.map lowerChar) : Spells other width number where
  length := by
    rw [← List.length_map lowerChar, hlower, List.length_map, h.length]
  digits c hc := by
    have hmem : lowerChar c ∈ text.map lowerChar := hlower ▸ List.mem_map_of_mem hc
    obtain ⟨d, hd, hdc⟩ := List.mem_map.1 hmem
    have hd' := h.digits d hd
    refine mem_digits_of_lowerChar (hdc ▸ ?_)
    rw [← digit_digitValue hd']
    exact digit_mem_smallDigits (digitValue_lt hd')
  number := by
    -- The value of a character is the place of its lower-case form.
    have hvalues : ∀ chars : List Char,
        chars.map digitValue = (chars.map lowerChar).map smallDigits.idxOf := by
      intro chars
      rw [List.map_map]
      rfl
    rw [hvalues, hlower, ← hvalues, h.number]

/-- Characters of one width spell the same number exactly if they are the same in lower case.
Rows of digits with one length and one number have the same values. -/
theorem Spells.map_lowerChar_eq_iff (h : Spells text width number) :
    other.map lowerChar = text.map lowerChar ↔ Spells other width number := by
  constructor
  · intro hlower
    exact h.of_map_lowerChar_eq hlower
  · intro hother
    -- Rows of digits with one length and one number have the same values.
    have hvalues : (other.map digitValue).reverse = (text.map digitValue).reverse := by
      refine Nat.ofDigits_inj_of_len_eq (b := 16) (by decide) ?_ ?_ ?_ ?_
      · simp [hother.length, h.length]
      · intro v hv
        exact hother.values_lt v (List.mem_reverse.1 hv)
      · intro v hv
        exact h.values_lt v (List.mem_reverse.1 hv)
      · exact hother.number.trans h.number.symm
    rw [hother.map_lowerChar, h.map_lowerChar, List.reverse_inj.1 hvalues]

/-- Texts of one width spell the same number exactly if they are the same in lower case. It
is the statement on characters, read for whole texts. The width is fixed, because a zero in
front would not show in the number. -/
theorem Spells.lower_eq_iff {text other : String} (h : Spells text.toList width number) :
    lower other = lower text ↔ Spells other.toList width number := by
  rw [← h.map_lowerChar_eq_iff, lower, lower]
  exact ⟨fun heq => String.ofList_injective heq, fun heq => congrArg String.ofList heq⟩

/-! ### Bytes -/

/-- The digits of bytes are read as the number of the bytes. Induction on the last byte: it
adds two digits, which shift the number before them by 16². -/
theorem number_encode (bytes : Bytes) :
    Digits.number 16 ((encode bytes).toList.map digitValue) = bytes.toNat := by
  rw [encode, String.toList_ofList, Digits.number_eq_foldl]
  induction bytes using List.reverseRecOn with
  | nil => rfl
  | append_singleton bytes b ih =>
      have hb : b.toNat < 256 := b.toNat_lt
      have hhigh : digitValue (digit (b.toNat / 16)) = b.toNat / 16 := digitValue_digit (by omega)
      have hlow : digitValue (digit (b.toNat % 16)) = b.toNat % 16 := digitValue_digit (by omega)
      rw [Bytes.toNat_append_singleton, List.flatMap_append, List.flatMap_singleton,
        List.map_append, List.foldl_append, ih, pair]
      simp only [List.map_cons, List.map_nil, List.foldl_cons, List.foldl_nil, hhigh, hlow]
      omega

/-- What bytes are written as spells their number, in two digits for each byte. So what is
read and what is written can both be compared with a number, and need not be compared with
each other. -/
theorem spells_encode (bytes : Bytes) :
    Spells (encode bytes).toList (2 * bytes.length) bytes.toNat where
  length := length_encode bytes
  digits _ hc := List.mem_append_left _ (mem_digits_of_mem_encode hc)
  number := number_encode bytes

/-- A text spells some bytes exactly if it has two digits for each of them and spells their
number. The case of the digits is the only freedom that is left to the text. -/
theorem decode_eq_ok_iff_spells (text : String) (bytes : Bytes) :
    decode text = .ok bytes ↔ Spells text.toList (2 * bytes.length) bytes.toNat := by
  rw [decode_eq_ok_iff, ← (spells_encode bytes).lower_eq_iff, lower_encode]

end Keyring.Hex
