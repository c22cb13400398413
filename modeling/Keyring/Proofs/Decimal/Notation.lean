import Keyring.Decimal.Notation
import Keyring.Proofs.Decimal.Shortest

/-!
# `Keyring.Proofs.Decimal.Notation`: decimals are read back

A decimal has one reading: the digits before and after its point as a number,
times the power of ten of its exponent. The theorems:

* `Digits.reading_plain`, `Digits.reading_withExponent`: digits are read back as
  their value, however they are written.
* `Binary.chars_inj`: two floats written in one style with the same characters
  are the same.
* `Binary.numeral_unsigned`: after its sign a float begins with a digit, and has only
  numeric characters.
* `Binary.marked`: in a style with points there is a point or an exponent.
-/

set_option autoImplicit false

namespace Keyring.Decimal

/-! ### Reading a decimal -/

/-- The parts of a text before and after the first place where a mark stands. -/
def cut (mark : Char) (chars : List Char) : List Char × List Char :=
  (chars.takeWhile (· != mark), (chars.dropWhile (· != mark)).tail)

/-- A text is cut at its first mark. What stands behind the mark may have the mark again. -/
theorem cut_append {mark : Char} {before : List Char} (h : mark ∉ before) (after : List Char) :
    cut mark (before ++ mark :: after) = (before, after) := by
  have hbefore : ∀ c ∈ before, (c != mark) = true := fun c hc =>
    bne_iff_ne.2 fun heq => h (heq ▸ hc)
  rw [cut, List.takeWhile_append_of_pos hbefore, List.dropWhile_append_of_pos hbefore]
  simp

/-- A text without the mark is not cut, and nothing follows. This is how a number without a
point or without an exponent is read. -/
theorem cut_of_not_mem {mark : Char} {chars : List Char} (h : mark ∉ chars) :
    cut mark chars = (chars, []) := by
  have hchars : ∀ c ∈ chars, (c != mark) = true := fun c hc =>
    bne_iff_ne.2 fun heq => h (heq ▸ hc)
  rw [cut, List.takeWhile_eq_self_iff.2 hchars, List.dropWhile_eq_nil_iff.2 hchars]
  rfl

/-- The number that digits before and after a point stand for. -/
def pointed (parts : List Char × List Char) : Rat :=
  Nat.ofDigitChars 10 (parts.1 ++ parts.2) 0 * 10 ^ (-parts.2.length : Int)

/-- The power of ten after the mark of an exponent. -/
def exponent : List Char → Int
  | [] => 0
  | sign :: digits =>
    if sign = '-' then -Nat.ofDigitChars 10 digits 0 else Nat.ofDigitChars 10 digits 0

/-- The number that a decimal without a sign stands for. -/
def reading (chars : List Char) : Rat :=
  pointed (cut '.' (cut 'e' chars).1) * 10 ^ exponent (cut 'e' chars).2

/-- A mark that is no digit is not among digits. The marks are the point and the two letters
that begin an exponent. -/
theorem not_mem_of_isDigit {mark : Char} {chars : List Char} (hmark : mark.isDigit = false)
    (h : ∀ c ∈ chars, c.isDigit = true) : mark ∉ chars := fun hmem => by
  rw [h mark hmem] at hmark
  cases hmark

/-- The zero that stands in front of a point is a digit. The same zero stands behind the
point of a whole number. -/
theorem isDigit_zero : ∀ c ∈ ['0'], c.isDigit = true :=
  fun _ hc => List.mem_singleton.1 hc ▸ rfl

/-- Digits alone are read as digits with nothing behind the point. There is neither a point
nor an exponent to cut at. -/
theorem reading_digits {whole : List Char} (hwhole : ∀ c ∈ whole, c.isDigit = true) :
    reading whole = pointed (whole, []) := by
  rw [reading, cut_of_not_mem (not_mem_of_isDigit rfl hwhole),
    cut_of_not_mem (not_mem_of_isDigit rfl hwhole)]
  exact mul_one _

/-- Digits with a point among them are read by what stands before and after it. -/
theorem reading_point {whole part : List Char} (hwhole : ∀ c ∈ whole, c.isDigit = true)
    (hpart : ∀ c ∈ part, c.isDigit = true) :
    reading (whole ++ '.' :: part) = pointed (whole, part) := by
  have hplain : 'e' ∉ whole ++ '.' :: part := by
    have h₁ : 'e' ∉ whole := not_mem_of_isDigit rfl hwhole
    have h₂ : 'e' ∉ part := not_mem_of_isDigit rfl hpart
    simp [h₁, h₂]
  rw [reading, cut_of_not_mem hplain, cut_append (not_mem_of_isDigit rfl hwhole)]
  exact mul_one _

/-- What precedes the mark of an exponent is read as without it, and scaled by the power. -/
theorem reading_exponent {mantissa : List Char} (h : 'e' ∉ mantissa) (digits : List Char) :
    reading (mantissa ++ 'e' :: digits) = reading mantissa * 10 ^ exponent digits := by
  rw [reading, cut_append h, reading, cut_of_not_mem h]
  show _ = _ * 10 ^ (0 : Int) * _
  rw [zpow_zero, mul_one]

/-! ### Numerals -/

/-- A character that a number can be written with. -/
def Numeric (c : Char) : Prop := c.isDigit = true ∨ c ∈ ['-', '+', '.', 'e']

instance (c : Char) : Decidable (Numeric c) :=
  inferInstanceAs (Decidable (c.isDigit = true ∨ c ∈ ['-', '+', '.', 'e']))

/-- The text of a number without a sign: numeric characters, a digit the first. -/
structure Numeral (chars : List Char) : Prop where
  numeric : ∀ c ∈ chars, Numeric c
  first : ∃ c rest, chars = c :: rest ∧ c.isDigit = true

/-- Some digits are a numeral. The first of them is the digit that a numeral has to begin
with. -/
theorem numeral_of_digits {digits : List Char} (hne : digits ≠ [])
    (h : ∀ c ∈ digits, c.isDigit = true) : Numeral digits := by
  obtain ⟨c, rest, rfl⟩ := List.exists_cons_of_ne_nil hne
  exact ⟨fun x hx => .inl (h x hx), c, rest, rfl, h c (List.mem_cons_self ..)⟩

/-- A zero is a numeral. It is how the two zeros are written, behind their sign. -/
theorem numeral_zero : Numeral ['0'] := numeral_of_digits (List.cons_ne_nil _ _) isDigit_zero

/-- A mark and what may follow it go on with a numeral: only its first character has to be a
digit. -/
theorem Numeral.append {chars : List Char} (h : Numeral chars) {mark : Char}
    (hmark : mark ∈ ['-', '+', '.', 'e']) {rest : List Char} (hrest : ∀ c ∈ rest, Numeric c) :
    Numeral (chars ++ mark :: rest) := by
  obtain ⟨hnumeric, c, tail, rfl, hdigit⟩ := h
  refine ⟨fun x hx => ?_, c, tail ++ mark :: rest, rfl, hdigit⟩
  rcases List.mem_append.1 hx with hleft | hright
  · exact hnumeric x hleft
  · exact (List.mem_cons.1 hright).elim (fun heq => heq ▸ .inr hmark) (hrest x)

/-! ### Digits are written and read -/

namespace Digits

variable {d : Digits}

/-- The digits before and after the point are digits. Where the point stands outside the
digits, they were filled up with zeros. -/
theorem isDigit_of_mem_split (h : ∀ c ∈ d.digits, c.isDigit = true) :
    (∀ c ∈ d.split.1, c.isDigit = true) ∧ ∀ c ∈ d.split.2, c.isDigit = true := by
  unfold split
  split
  · refine ⟨isDigit_zero, fun c hc => ?_⟩
    rcases List.mem_append.1 hc with hzero | hdigit
    · exact List.eq_of_mem_replicate hzero ▸ rfl
    · exact h c hdigit
  · refine ⟨fun c hc => ?_, fun c hc => h c (List.mem_of_mem_drop hc)⟩
    rcases List.mem_append.1 hc with hdigit | hzero
    · exact h c (List.mem_of_mem_take hdigit)
    · exact List.eq_of_mem_replicate hzero ▸ rfl

/-- The place of the point keeps the value. The three cases are a point before, among and
behind the digits, and the zeros that are put in count in the power. -/
theorem pointed_split : Decimal.pointed d.split = d.value := by
  unfold split
  split
  · rename_i hlead
    -- The point stands before the digits, with zeros between.
    have hlength : -((List.replicate (-d.lead - 1).toNat '0' ++ d.digits).length : Int)
        = d.lead + 1 - d.digits.length := by
      rw [List.length_append, List.length_replicate]
      omega
    have hdigits : Nat.ofDigitChars 10
        (['0'] ++ (List.replicate (-d.lead - 1).toNat '0' ++ d.digits)) 0
        = Nat.ofDigitChars 10 d.digits 0 := by
      rw [List.singleton_append, Nat.ofDigitChars_cons, Nat.ofDigitChars_append,
        Nat.ofDigitChars_replicate_zero]
      rfl
    rw [Decimal.pointed, hlength, hdigits]
    rfl
  · rename_i hlead
    rcases Nat.lt_or_ge (d.lead.toNat + 1) d.digits.length with hlt | hge
    · -- The point stands among the digits.
      have hzeros : d.lead.toNat + 1 - d.digits.length = 0 := by omega
      have hlength : -((d.digits.drop (d.lead.toNat + 1)).length : Int)
          = d.lead + 1 - d.digits.length := by
        rw [List.length_drop]
        omega
      rw [Decimal.pointed]
      dsimp only
      rw [hlength, hzeros, List.replicate_zero, List.append_nil, List.take_append_drop]
      rfl
    · -- The point stands behind the digits, with zeros between.
      obtain ⟨zeros, hzeros⟩ := Nat.le.dest hge
      have hlength : d.lead + 1 - d.digits.length = (zeros : Int) := by omega
      rw [Decimal.pointed, value]
      dsimp only
      rw [List.drop_eq_nil_of_le hge, List.take_of_length_le hge, List.append_nil,
        Nat.ofDigitChars_append, Nat.ofDigitChars_replicate_zero, hlength, ← hzeros,
        Nat.add_sub_cancel_left, zpow_natCast]
      show ((10 ^ zeros * _ : Nat) : Rat) * 10 ^ (0 : Int) = _
      push_cast
      ring

/-- A zero after the point changes nothing. It adds a digit and divides by ten. -/
theorem pointed_zero (whole : List Char) :
    Decimal.pointed (whole, ['0']) = Decimal.pointed (whole, []) := by
  unfold Decimal.pointed
  dsimp only
  rw [Nat.ofDigitChars_append, List.append_nil, Nat.ofDigitChars_cons]
  show ((10 * Nat.ofDigitChars 10 whole 0 + 0 : Nat) : Rat) * 10 ^ (-1 : Int) = _ * 10 ^ (0 : Int)
  push_cast
  ring

/-- Before the point there is at least one digit, a zero if there is no other. -/
theorem split_fst_ne_nil (d : Digits) : d.split.1 ≠ [] := by
  unfold split
  split
  · exact List.cons_ne_nil _ _
  · intro h
    have hlength := congrArg List.length h
    simp only [List.length_append, List.length_take, List.length_replicate, List.length_nil]
      at hlength
    omega

/-- A plain decimal is its digits before the point, and perhaps a point and more digits. The
style says whether a whole number gets a point. -/
theorem plain_cases (d : Digits) (pointed : Bool) :
    (d.plain pointed = d.split.1 ∧ d.split.2 = [] ∧ pointed = false) ∨
    (d.plain pointed = d.split.1 ++ ['.', '0'] ∧ d.split.2 = [] ∧ pointed = true) ∨
    d.plain pointed = d.split.1 ++ '.' :: d.split.2 := by
  unfold plain
  dsimp only
  split
  · rename_i hempty
    have hnone := List.isEmpty_iff.1 hempty
    cases pointed with
    | false => exact .inl ⟨List.append_nil _, hnone, rfl⟩
    | true => exact .inr (.inl ⟨rfl, hnone, rfl⟩)
  · exact .inr (.inr rfl)

/-- A plain decimal is read as the value of its digits. Its three forms, without a point,
with a zero behind it and with digits behind it, are read alike. -/
theorem reading_plain (h : ∀ c ∈ d.digits, c.isDigit = true) (pointed : Bool) :
    reading (d.plain pointed) = d.value := by
  obtain ⟨hwhole, hpart⟩ := isDigit_of_mem_split h
  have hsplit : Decimal.pointed (d.split.1, d.split.2) = d.value := pointed_split
  rcases d.plain_cases pointed with ⟨heq, hnone, -⟩ | ⟨heq, hnone, -⟩ | heq
  · rw [heq, reading_digits hwhole, ← hnone, hsplit]
  · rw [heq, reading_point hwhole isDigit_zero, pointed_zero, ← hnone, hsplit]
  · rw [heq, reading_point hwhole hpart, hsplit]

/-- A plain decimal is a numeral. A point, where there is one, comes after digits, so the
first character is a digit in each of the three forms. -/
theorem numeral_plain (h : ∀ c ∈ d.digits, c.isDigit = true) (pointed : Bool) :
    Numeral (d.plain pointed) := by
  obtain ⟨hwhole, hpart⟩ := isDigit_of_mem_split h
  have hnumeral := numeral_of_digits d.split_fst_ne_nil hwhole
  rcases d.plain_cases pointed with ⟨heq, -⟩ | ⟨heq, -⟩ | heq
  · exact heq ▸ hnumeral
  · exact heq ▸ hnumeral.append (by decide) fun c hc => .inl (isDigit_zero c hc)
  · exact heq ▸ hnumeral.append (by decide) fun c hc => .inl (hpart c hc)

/-- A written exponent is read back, with its sign. The style writes both signs, so there are
two cases. -/
theorem exponent_toDigits (lead : Int) :
    exponent ((if lead < 0 then '-' else '+') :: Nat.toDigits 10 lead.natAbs) = lead := by
  rw [exponent, Nat.ofDigitChars_ten_toDigits]
  rcases lt_or_ge lead 0 with hneg | hpos
  · rw [if_pos hneg, if_pos rfl]
    omega
  · rw [if_neg (Int.not_lt.2 hpos), if_neg (by decide)]
    omega

/-- An exponent follows a mantissa with one digit before the point. The mantissa has no mark
of its own, so the text is cut where it ends. -/
theorem withExponent_eq (h : ∀ c ∈ d.digits, c.isDigit = true) : ∃ mantissa : List Char,
    d.withExponent = mantissa ++ 'e' :: (if d.lead < 0 then '-' else '+') ::
      Nat.toDigits 10 d.lead.natAbs ∧
    Numeral mantissa ∧ 'e' ∉ mantissa ∧
    reading mantissa = Nat.ofDigitChars 10 d.digits 0 * 10 ^ (1 - d.digits.length : Int) := by
  unfold withExponent
  dsimp only
  refine ⟨_, rfl, ?_⟩
  split
  · rename_i hnil
    -- Without digits a zero is written.
    rw [hnil, reading_digits isDigit_zero]
    exact ⟨numeral_zero, by decide, by simp [Decimal.pointed, Nat.ofDigitChars]⟩
  · rename_i c hone
    -- A single digit has no point behind it.
    rw [hone] at h ⊢
    rw [reading_digits h]
    exact ⟨numeral_of_digits (List.cons_ne_nil _ _) h, not_mem_of_isDigit rfl h, rfl⟩
  · rename_i c rest _ hrest
    -- The point stands behind the first of the digits.
    rw [hrest] at h ⊢
    obtain ⟨hfirst, hpart⟩ := List.forall_mem_cons.1 h
    have hwhole : ∀ x ∈ [c], x.isDigit = true := fun x hx => List.mem_singleton.1 hx ▸ hfirst
    have hmark : 'e' ∉ c :: rest := not_mem_of_isDigit rfl h
    refine ⟨(numeral_of_digits (List.cons_ne_nil _ _) hwhole).append (by decide)
      fun x hx => .inl (hpart x hx), by simpa using hmark, ?_⟩
    rw [← List.singleton_append, reading_point hwhole hpart, Decimal.pointed, List.length_cons]
    show _ * (10 : Rat) ^ _ = _
    congr 2
    push_cast
    ring

/-- A decimal with an exponent is read as the value of its digits: the exponent makes up for
the place of the point. The mantissa has one digit before the point, so the exponent is the
place of the first digit. -/
theorem reading_withExponent (h : ∀ c ∈ d.digits, c.isDigit = true) :
    reading d.withExponent = d.value := by
  obtain ⟨mantissa, hchars, -, hmark, hmantissa⟩ := withExponent_eq h
  rw [hchars, reading_exponent hmark, exponent_toDigits, hmantissa, mul_assoc,
    ← zpow_add₀ (by decide), value]
  congr 2
  ring

/-- A decimal with an exponent is a numeral. Its mantissa is one, and behind it come the
mark, a sign and digits. -/
theorem numeral_withExponent (h : ∀ c ∈ d.digits, c.isDigit = true) :
    Numeral d.withExponent := by
  obtain ⟨mantissa, hchars, hnumeral, -⟩ := withExponent_eq h
  rw [hchars]
  refine hnumeral.append (by decide) (List.forall_mem_cons.2 ⟨.inr ?_, fun c hc => .inl ?_⟩)
  · split <;> decide
  · exact isDigit_toDigits _ c hc

end Digits

/-! ### The characters of a float -/

namespace Binary

variable {f : Format} {style : Style} {x y : Binary f}

/-- The characters of a float after its sign. -/
def unsigned (style : Style) (x : Binary f) : List Char :=
  if x.bits = 0 then (if style.pointed then ['0', '.', '0'] else ['0'])
  else
    match style.plain with
    | some (low, high) =>
      if low ≤ (x.shortest style.tie).lead ∧ (x.shortest style.tie).lead ≤ high then
        (x.shortest style.tie).plain style.pointed
      else (x.shortest style.tie).withExponent
    | none => (x.shortest style.tie).plain style.pointed

/-- A float is its sign and what is written without it. Reading the two parts is treated
apart, since the sign is the same for both zeros and for all other floats. -/
theorem chars_eq (style : Style) (x : Binary f) :
    x.chars style = (if x.negative then ['-'] else []) ++ x.unsigned style := by
  unfold chars unsigned
  generalize (if x.negative then ['-'] else []) = sign
  by_cases hzero : x.bits = 0
  · exact (if_pos hzero).trans (congrArg (sign ++ ·) (if_pos hzero).symm)
  · exact (if_neg hzero).trans (congrArg (sign ++ ·) (if_neg hzero).symm)

/-- A float is zero or written with its shortest digits. The style decides about the point of
a zero and between the plain form and that with an exponent. -/
theorem unsigned_cases (style : Style) (x : Binary f) :
    (x.bits = 0 ∧ x.unsigned style = ['0', '.', '0']) ∨
    (x.bits = 0 ∧ x.unsigned style = ['0'] ∧ style.pointed = false) ∨
    (x.bits ≠ 0 ∧ x.unsigned style = (x.shortest style.tie).plain style.pointed) ∨
    (x.bits ≠ 0 ∧ x.unsigned style = (x.shortest style.tie).withExponent) := by
  unfold unsigned
  split
  · rename_i hzero
    split
    · exact .inl ⟨hzero, rfl⟩
    · rename_i hbare
      exact .inr (.inl ⟨hzero, rfl, Bool.eq_false_iff.2 hbare⟩)
  · rename_i hnonzero
    -- What is left is the choice between the two forms, which depends on the style and the size.
    refine .inr (.inr ?_)
    split
    · split
      · exact .inl ⟨hnonzero, rfl⟩
      · exact .inr ⟨hnonzero, rfl⟩
    · exact .inl ⟨hnonzero, rfl⟩

/-- After its sign a float begins with a digit, and has only numeric characters, in all four
forms. It is why a number ends at the first character of another kind, and why no float is
confused with a literal. -/
theorem numeral_unsigned (style : Style) (x : Binary f) : Numeral (x.unsigned style) := by
  rcases unsigned_cases style x with ⟨-, h⟩ | ⟨-, h, -⟩ | ⟨-, h⟩ | ⟨-, h⟩
  · exact h ▸ numeral_zero.append (by decide) fun c hc => .inl (isDigit_zero c hc)
  · exact h ▸ numeral_zero
  · exact h ▸ Digits.numeral_plain isDigit_of_mem_shortest _
  · exact h ▸ Digits.numeral_withExponent isDigit_of_mem_shortest

/-- A float is written with numeric characters only, so none of them needs an escape and none
ends the number. -/
theorem numeric_chars (style : Style) (x : Binary f) : ∀ c ∈ x.chars style, Numeric c := by
  intro c hc
  rw [chars_eq] at hc
  rcases List.mem_append.1 hc with hsign | hdigits
  · cases hx : x.negative <;> rw [hx] at hsign
    · cases hsign
    · exact List.mem_singleton.1 hsign ▸ .inr (by decide)
  · exact (numeral_unsigned style x).numeric c hdigits

/-- In a style with points there is a point or the mark of an exponent. So a float is never
written like a whole number. Canonical texts need this: a whole number and a float of the
same value are printed differently. -/
theorem marked (hstyle : style.pointed = true) (x : Binary f) :
    '.' ∈ x.chars style ∨ 'e' ∈ x.chars style := by
  rw [chars_eq]
  refine Or.imp (List.mem_append_right _) (List.mem_append_right _) ?_
  rcases unsigned_cases style x with ⟨-, h⟩ | ⟨-, -, hbare⟩ | ⟨-, h⟩ | ⟨-, h⟩
  · exact .inl (h ▸ by decide)
  · rw [hstyle] at hbare
    cases hbare
  · -- The plain form has a point in this style, with a zero behind it if nothing else.
    refine .inl ?_
    rcases (x.shortest style.tie).plain_cases style.pointed with ⟨-, -, hbare⟩ | ⟨heq, -⟩ | heq
    · rw [hstyle] at hbare
      cases hbare
    · simp [h, heq]
    · simp [h, heq]
  · refine .inr ?_
    obtain ⟨mantissa, heq, -⟩ :=
      Digits.withExponent_eq (d := x.shortest style.tie) isDigit_of_mem_shortest
    simp [h, heq]

/-- What follows the sign of a float is read as the value of its shortest digits, in either
form. -/
theorem reading_unsigned (hx : x.bits ≠ 0) :
    reading (x.unsigned style) = (x.shortest style.tie).value := by
  rcases unsigned_cases style x with ⟨hzero, -⟩ | ⟨hzero, -⟩ | ⟨-, h⟩ | ⟨-, h⟩
  · exact absurd hzero hx
  · exact absurd hzero hx
  · rw [h, Digits.reading_plain isDigit_of_mem_shortest]
  · rw [h, Digits.reading_withExponent isDigit_of_mem_shortest]

/-- What follows the sign of a zero is read as zero. A zero is written without asking for its
shortest digits, so its texts are few and are read one by one. -/
theorem reading_unsigned_zero (hx : x.bits = 0) : reading (x.unsigned style) = 0 := by
  have hpointed : pointed (['0'], []) = 0 := by simp [pointed, Nat.ofDigitChars]
  rcases unsigned_cases style x with ⟨-, h⟩ | ⟨-, h, -⟩ | ⟨hne, -⟩ | ⟨hne, -⟩
  · have hpoint : ['0', '.', '0'] = ['0'] ++ '.' :: ['0'] := rfl
    rw [h, hpoint, reading_point isDigit_zero isDigit_zero, Digits.pointed_zero, hpointed]
  · rw [h, reading_digits isDigit_zero, hpointed]
  · exact absurd hx hne
  · exact absurd hx hne

/-- Only floats of the same bits have the same characters after the sign. A zero is read as
zero and another float as its digits, whose value is positive and determines the bits. -/
theorem bits_eq_of_unsigned (hpos : f.fractionBits ≠ 0) (hf : f.fractionBits ≤ 52)
    (h : x.unsigned style = y.unsigned style) : x.bits = y.bits := by
  have hreading := congrArg reading h
  rcases Nat.eq_zero_or_pos x.bits with hx | hx <;> rcases Nat.eq_zero_or_pos y.bits with hy | hy
  · rw [hx, hy]
  · rw [reading_unsigned_zero hx, reading_unsigned hy.ne'] at hreading
    exact absurd hreading (value_shortest_pos hf hy.ne').ne
  · rw [reading_unsigned_zero hy, reading_unsigned hx.ne'] at hreading
    exact absurd hreading (value_shortest_pos hf hx.ne').ne'
  · rw [reading_unsigned hx.ne', reading_unsigned hy.ne'] at hreading
    exact bits_eq_of_value_shortest hpos hf hx.ne' hy.ne' hreading

/-- No float without a sign is written like one with a sign, because it begins with a digit. -/
theorem unsigned_ne_cons_minus (style : Style) (x : Binary f) (rest : List Char) :
    x.unsigned style ≠ '-' :: rest := fun h => by
  obtain ⟨c, tail, hfirst, hdigit⟩ := (numeral_unsigned style x).first
  rw [hfirst] at h
  rw [(List.cons.inj h).1] at hdigit
  cases hdigit

/-- Floats that are written with the same characters are the same. The sign is the first
character or it is not there, and the rest determines the bits. The digits are the shortest
that lead back to the float, but only that they lead back to it is used. -/
theorem chars_inj (hpos : f.fractionBits ≠ 0) (hf : f.fractionBits ≤ 52)
    (h : x.chars style = y.chars style) : x = y := by
  have hparts : x.negative = y.negative ∧ x.unsigned style = y.unsigned style := by
    rw [chars_eq, chars_eq] at h
    cases hx : x.negative <;> cases hy : y.negative <;> rw [hx, hy] at h
    · exact ⟨rfl, h⟩
    · -- One of the two begins with a minus sign, with which no digits begin.
      exact absurd h (unsigned_ne_cons_minus style x _)
    · exact absurd h.symm (unsigned_ne_cons_minus style y _)
    · exact ⟨rfl, List.append_cancel_left h⟩
  -- The rest is read as a number, and the number is nearest to only one float.
  have hbits := bits_eq_of_unsigned hpos hf hparts.2
  obtain ⟨negative, bits, hfinite⟩ := x
  obtain ⟨negative', bits', hfinite'⟩ := y
  obtain rfl : negative = negative' := hparts.1
  obtain rfl : bits = bits' := hbits
  rfl

end Binary
end Keyring.Decimal
