import Mathlib.Algebra.Group.Nat.Defs
import Keyring.Proofs.Time.Calendar
import Keyring.Time.Rfc3339

/-!
# `Keyring.Proofs.Time.Rfc3339`: written instants are read back

The writer fills numbers up with zeros to a fixed width, and each part is read
by its width, so the parts need no lookahead. The theorems:

* `readDigits_padded`: the reader of a part gives the number that was written.
* `readYear_yearChars`, `readFraction_fractionChars`: the two parts whose width
  varies.
* `parse_render_clockTime`: what was written of a clock's time is read as that
  time, leap seconds and years outside 0 … 9999 included.
* `render_carried`, `parse_render`: a leap second that does not end a minute is
  written like the second after its own, so it is read as that one.
-/

set_option autoImplicit false

namespace Keyring

namespace Rfc3339

/-! ### Numbers of a fixed width -/

/-- The number that digits stand for, as the reader of digits computes it. -/
def valueOf (digits : List Char) : Nat := digits.foldl (fun n c => n * 10 + (c.toNat - 48)) 0

/-- The value of digits is the number that they stand for. So the library's facts about
digits can be used for the reader. -/
theorem valueOf_eq_ofDigitChars (digits : List Char) :
    valueOf digits = Nat.ofDigitChars 10 digits 0 := by
  rw [Nat.ofDigitChars_eq_foldl, valueOf]
  congr 1
  funext n c
  rw [Nat.mul_comm]
  rfl

/-- A number that is filled up to a width is made of digits. -/
theorem isDigit_of_mem_padded {width n : Nat} {c : Char} (h : c ∈ padded width n) :
    c.isDigit = true := by
  rcases List.mem_append.mp h with hzero | hdigit
  · rw [(List.mem_replicate.mp hzero).2]
    rfl
  · exact Nat.isDigit_of_mem_toDigits (by decide) (by decide) hdigit

/-- The zeros in front of a number do not change its value. The digits behind them have it. -/
theorem valueOf_padded (width n : Nat) : valueOf (padded width n) = n := by
  rw [valueOf_eq_ofDigitChars, padded, Nat.ofDigitChars_append, Nat.ofDigitChars_replicate_zero,
    Nat.mul_zero, Nat.ofDigitChars_ten_toDigits]

/-- A number that fits into a width is filled up to just that width. -/
theorem length_padded {width n : Nat} (hw : 0 < width) (hn : n < 10 ^ width) :
    (padded width n).length = width := by
  have hle : (Nat.toDigits 10 n).length ≤ width :=
    (Nat.length_toDigits_le_iff (by decide) hw).mpr hn
  rw [padded, List.length_append, List.length_replicate]
  omega

/-- A number that is filled up has at least one digit. Zero is written as a digit too. -/
theorem padded_ne_nil (width n : Nat) : padded width n ≠ [] := by
  intro h
  have := List.append_eq_nil_iff.mp h
  exact Nat.toDigits_ne_nil this.2

/-- A part is read up to its width, or up to the first character that is no digit. -/
theorem readDigits_eq {width : Nat} {digits rest : List Char} (hne : digits ≠ [])
    (hdigits : ∀ c ∈ digits, c.isDigit = true) (hle : digits.length ≤ width)
    (hend : digits.length = width ∨ ∀ c ∈ rest.head?, c.isDigit = false)
    (hsmall : valueOf digits < 9223372036854775808) :
    readDigits width (digits ++ rest) = .ok (valueOf digits, rest) := by
  have htake : ((digits ++ rest).take width).takeWhile Char.isDigit = digits := by
    rw [List.take_append, List.take_of_length_le hle]
    rw [List.takeWhile_append_of_pos hdigits]
    -- All digits that fit were taken, or what follows is no digit.
    rcases hend with hfull | hstop
    · rw [hfull, Nat.sub_self, List.take_zero, List.takeWhile_nil, List.append_nil]
    · cases rest with
      | nil => simp
      | cons c rest =>
          have hc : c.isDigit = false := hstop c rfl
          cases hk : width - digits.length with
          | zero => simp
          | succ k => simp [hc]
  cases hd : digits with
  | nil => exact absurd hd hne
  | cons c more =>
      -- There is a digit to begin with, and the value fits into 64 bits.
      have hc : c.isDigit = true := hdigits c (by rw [hd]; exact List.mem_cons_self)
      rw [hd] at htake hsmall
      show (if c.isDigit = true then _ else _) = _
      rw [if_pos hc]
      show (if 9223372036854775808 ≤ valueOf _ then _ else _) = _
      rw [htake, if_neg (Nat.not_le.mpr hsmall), List.drop_left]
      rfl

/-- A number that was filled up to a width is read by that width. The zeros in front count
for the width and not for the value. -/
theorem readDigits_padded {width n : Nat} (hw : 0 < width) (hn : n < 10 ^ width)
    (hsmall : n < 9223372036854775808) (rest : List Char) :
    readDigits width (padded width n ++ rest) = .ok (n, rest) := by
  have hlength := length_padded hw hn
  rw [readDigits_eq (padded_ne_nil width n) (fun c => isDigit_of_mem_padded)
    (Nat.le_of_eq hlength) (.inl hlength) (by rwa [valueOf_padded]), valueOf_padded]

/-! ### Blanks and separators -/

/-- Nothing is skipped in front of a character that is no blank. The writer puts no blanks
between its parts. -/
theorem skipBlanks_cons {c : Char} (h : Text.isBlank c = false) (rest : List Char) :
    Text.skipBlanks (c :: rest) = c :: rest := by
  rw [Text.skipBlanks, List.dropWhile_cons_of_neg (by rw [h]; decide)]

/-- No digit is a blank. Digits stand between the codes 48 and 57, where there are no blanks. -/
theorem isBlank_of_isDigit {c : Char} (h : c.isDigit = true) : Text.isBlank c = false := by
  have hrange : 48 ≤ c.toNat ∧ c.toNat ≤ 57 := by
    simpa [Char.isDigit, UInt32.le_iff_toNat_le] using h
  unfold Text.isBlank
  simp only [Bool.or_eq_false_iff, Bool.and_eq_false_iff, decide_eq_false_iff_not,
    beq_eq_false_iff_ne]
  omega

/-- Nothing is skipped in front of a number. Its first character is a digit. -/
theorem skipBlanks_padded (width n : Nat) (rest : List Char) :
    Text.skipBlanks (padded width n ++ rest) = padded width n ++ rest := by
  cases hp : padded width n with
  | nil => exact absurd hp (padded_ne_nil width n)
  | cons c more =>
      have hc : c ∈ padded width n := by
        rw [hp]
        exact List.mem_cons_self
      exact skipBlanks_cons (isBlank_of_isDigit (isDigit_of_mem_padded hc)) _

/-- A separator that is no blank is taken where it stands. The separators of a time are a
dash, a colon and a letter. -/
theorem expect_cons {c : Char} (h : Text.isBlank c = false) (rest : List Char) :
    expect c (c :: rest) = .ok rest := by
  rw [expect, skipBlanks_cons h]
  exact if_pos rfl

/-- A part of two digits in its range is read back. Months, days, hours, minutes and seconds
are such parts. -/
theorem readPart_padded {low high n : Nat} (hlow : low ≤ n) (hhigh : n ≤ high) (hn : n < 100)
    (rest : List Char) : readPart low high (padded 2 n ++ rest) = .ok (n, rest) := by
  rw [readPart, skipBlanks_padded, readDigits_padded (by decide) (by omega) (by omega)]
  exact if_pos ⟨hlow, hhigh⟩

/-! ### Parts of varying width -/

/-- A year is read back: four digits, or all digits after a sign. The separator behind it
ends the digits. Years of more than four digits carry a sign, by which the reader knows to
take all digits. -/
theorem readYear_yearChars {year : Int} (hlow : -2147483648 ≤ year) (hhigh : year < 2147483648)
    (rest : List Char) : readYear (yearChars year ++ '-' :: rest) = .ok (year, '-' :: rest) := by
  have hstop : ∀ c ∈ ('-' :: rest).head?, c.isDigit = false := by
    intro c hc
    obtain rfl : '-' = c := Option.some.inj hc
    rfl
  have hsigned : ∀ n : Nat, n < 9223372036854775808 →
      readDigits (padded 4 n ++ '-' :: rest).length (padded 4 n ++ '-' :: rest)
        = .ok (n, '-' :: rest) := by
    intro n hn
    rw [readDigits_eq (padded_ne_nil 4 n) (fun c => isDigit_of_mem_padded)
      (by rw [List.length_append]; omega) (.inr hstop) (by rwa [valueOf_padded]), valueOf_padded]
  by_cases hplain : 0 ≤ year ∧ year ≤ 9999
  -- Only years of four digits are written without a sign.
  · have hread := readDigits_padded (by decide : 0 < 4) (by omega : year.toNat < 10 ^ 4)
      (by omega) ('-' :: rest)
    have hyear : (year.toNat : Int) = year := Int.toNat_of_nonneg hplain.1
    rw [yearChars, if_pos hplain, readYear, skipBlanks_padded]
    cases hp : padded 4 year.toNat with
    | nil => exact absurd hp (padded_ne_nil _ _)
    | cons c more =>
        have hc : c.isDigit = true := isDigit_of_mem_padded (hp ▸ List.mem_cons_self)
        rw [hp] at hread
        -- A digit is neither sign, so the plain reader applies.
        have hminus : c ≠ '-' := fun h => absurd hc (by rw [h]; decide)
        have hplus : c ≠ '+' := fun h => absurd hc (by rw [h]; decide)
        simp only [List.cons_append] at hread ⊢
        split
        · rename_i heq
          exact absurd (List.cons.inj heq).1 hminus
        · rename_i heq
          exact absurd (List.cons.inj heq).1 hplus
        · simp only [hread, Except.map, bind, Except.bind, hyear]
          exact if_pos ⟨hlow, hhigh⟩
  · rw [yearChars, if_neg hplain, readYear]
    by_cases hneg : year < 0
    · rw [if_pos hneg, List.cons_append, skipBlanks_cons (by decide)]
      have habs : -(year.natAbs : Int) = year := by omega
      simp only [hsigned year.natAbs (by omega), Except.map, bind, Except.bind, habs]
      exact if_pos ⟨hlow, hhigh⟩
    · rw [if_neg hneg, List.cons_append, skipBlanks_cons (by decide)]
      have habs : (year.natAbs : Int) = year := by omega
      simp only [hsigned year.natAbs (by omega), Except.map, bind, Except.bind, habs]
      exact if_pos ⟨hlow, hhigh⟩

/-- A fraction of `width` digits before the mark of the offset is read in nanoseconds. -/
theorem readFraction_padded {width n : Nat} (hw : 0 < width) (hle : width ≤ 9)
    (hn : n < 10 ^ width) :
    readFraction ('.' :: padded width n ++ ['Z']) = .ok (n * 10 ^ (9 - width), ['Z']) := by
  have hlength := length_padded hw hn
  have hbound : 10 ^ width ≤ 10 ^ 9 := Nat.pow_le_pow_right (by decide) hle
  have hread : readDigits 9 (padded width n ++ ['Z']) = .ok (n, ['Z']) := by
    rw [readDigits_eq (padded_ne_nil width n) (fun c => isDigit_of_mem_padded)
      (by rw [hlength]; exact hle) (.inr fun c hc => by
        obtain rfl : 'Z' = c := Option.some.inj hc
        rfl) (by rw [valueOf_padded]; omega), valueOf_padded]
  -- The reader scales by the number of digits that it took.
  have hused : (padded width n ++ ['Z']).length - ['Z'].length = width := by
    rw [List.length_append, hlength, Nat.add_sub_cancel]
  show (readDigits 9 (padded width n ++ ['Z']) >>= _) = _
  rw [hread]
  show Except.ok (n * 10 ^ (9 - ((padded width n ++ ['Z']).length - ['Z'].length)), _) = _
  rw [hused]
  rfl

/-- The fraction of a second is read back from as many digits as it needs: none, three, six
or nine. -/
theorem readFraction_fractionChars {nanos : Nat} (h : nanos < 1000000000) :
    readFraction (fractionChars nanos ++ ['Z']) = .ok (nanos, ['Z']) := by
  unfold fractionChars
  split
  · rename_i hzero
    rw [hzero]
    rfl
  · split
    · -- Three digits stand for whole milliseconds, so the zeros that were left out come back.
      rw [readFraction_padded (by decide) (by decide) (by omega)]
      congr 2
      omega
    · split
      · rw [readFraction_padded (by decide) (by decide) (by omega)]
        congr 2
        omega
      · rw [readFraction_padded (by decide) (by decide) (by omega)]
        congr 2
        omega

/-! ### Whole instants -/

/-- The parts of a time's day and clock give that time again. This is where a leap second must
end its minute: it shows as second 60, and the sixtieth second alone is taken back. -/
theorem assemble_parts (t : ClockTime) :
    assemble (Calendar.Date.ofDays t.day) (t.second / 3600) (t.second / 60 % 60)
      (t.second % 60 + t.nanos / 1000000000) (t.nanos % 1000000000) 0 = .ok t := by
  obtain ⟨⟨day, second, nanos, hmin, hmax, hsecond, hnanos⟩, hleap⟩ := t
  have hdays := Calendar.toDays_ofDays day
  have hvalid := Calendar.isValid_ofDays day
  simp only at *
  -- A leap second shows as second 60 and is taken back to second 59.
  have hmark : (second % 60 + nanos / 1000000000) / 60 = nanos / 1000000000 := by
    by_cases h : 1000000000 ≤ nanos
    · have : second % 60 = 59 := hleap h
      omega
    · omega
  have hrest : second % 60 + nanos / 1000000000 - nanos / 1000000000 = second % 60 := by omega
  have hnanosum : nanos / 1000000000 * 1000000000 + nanos % 1000000000 = nanos := by omega
  have hclock : (((second / 3600 : Nat) : Int) * 3600 + ((second / 60 % 60 : Nat) : Int) * 60
      + ((second % 60 : Nat) : Int)) = second := by omega
  have hquotient : (day * 86400 + (second : Int) - 0) / 86400 = day := by omega
  have hremainder : ((day * 86400 + (second : Int) - 0) % 86400).toNat = second := by omega
  have hbad : (!(Calendar.Date.ofDays day).isValid || decide (day < Calendar.minDay) ||
      decide (Calendar.maxDay < day)) = false := by
    rw [hvalid, decide_eq_false (Int.not_lt.mpr hmin), decide_eq_false (Int.not_lt.mpr hmax)]
    rfl
  unfold assemble
  simp only [hdays, hmark, hrest, hclock, hnanosum, hbad, Bool.false_eq_true, if_false]
  rw [if_neg (by decide), ClockTime.ofUnix?, hquotient, hremainder, ClockTime.ofParts?,
    dif_pos ⟨hmin, hmax, hsecond, hnanos, hleap⟩]

/-- The year of a day that is represented fits into 32 bits, which the reader of years asks
for. -/
theorem year_range {day : Int} (hmin : Calendar.minDay ≤ day) (hmax : day ≤ Calendar.maxDay) :
    -2147483648 ≤ (Calendar.Date.ofDays day).year ∧
      (Calendar.Date.ofDays day).year < 2147483648 := by
  have hyear := (Calendar.yearOfCycle_spec (Calendar.dayOfCycle_lt day)).1
  unfold Calendar.minDay at hmin
  unfold Calendar.maxDay at hmax
  rw [Calendar.ofDays_eq]
  simp only
  constructor <;> split <;> omega

/-- The written form of an instant, each part in front of the text that follows it. The
readers take the parts off one by one. -/
theorem chars_eq (t : Instant) :
    chars t = yearChars (Calendar.Date.ofDays t.day).year ++
      '-' :: (padded 2 (Calendar.Date.ofDays t.day).month ++
      '-' :: (padded 2 (Calendar.Date.ofDays t.day).day ++
      'T' :: (padded 2 (t.second / 3600) ++
      ':' :: (padded 2 (t.second / 60 % 60) ++
      ':' :: (padded 2 (t.second % 60 + t.nanos / 1000000000) ++
      (fractionChars (t.nanos % 1000000000) ++ ['Z'])))))) := by
  simp only [chars, List.append_assoc, List.cons_append]

/-- What was written of a clock's time is read as that time. The written parts have fixed
widths or end at a separator, so each reader stops where the next part begins, and the parts
together give the time by `assemble_parts`. -/
theorem parse_render_clockTime (t : ClockTime) : parse (render t) = .ok t := by
  obtain ⟨hyearLow, hyearHigh⟩ := year_range t.minDay_le t.le_maxDay
  have hvalid := Calendar.isValid_ofDays t.day
  simp only [Calendar.Date.isValid, Bool.and_eq_true, decide_eq_true_eq] at hvalid
  obtain ⟨⟨⟨hmonthLow, hmonthHigh⟩, hdayLow⟩, hdayHigh⟩ := hvalid
  have hlength : Calendar.monthLength (Calendar.Date.ofDays t.day).year
      (Calendar.Date.ofDays t.day).month ≤ 31 := by
    unfold Calendar.monthLength
    split
    · split <;> omega
    all_goals omega
  have hsecond := t.second_lt
  have hnanos := t.nanos_lt
  have hleap := t.leapLast
  -- A leap second is written as second 60, and there is none but after second 59.
  have hsixty : t.second % 60 + t.nanos / 1000000000 ≤ 60 := by
    by_cases h : 1000000000 ≤ t.nanos
    · have := hleap h
      omega
    · omega
  -- Part by part: each reader stops where the next separator stands.
  rw [parse, render, String.toList_ofList, chars_eq]
  simp only [readYear_yearChars hyearLow hyearHigh, bind, Except.bind]
  simp only [expect_cons (c := '-') (by decide),
    readPart_padded hmonthLow hmonthHigh (by omega),
    readPart_padded hdayLow (Nat.le_trans hdayHigh hlength) (by omega)]
  rw [if_pos (.inr (.inl trivial))]
  simp only [expect_cons (c := ':') (by decide),
    readPart_padded (Nat.zero_le _) (by omega : t.second / 3600 ≤ 23) (by omega),
    readPart_padded (Nat.zero_le _) (by omega : t.second / 60 % 60 ≤ 59) (by omega),
    readPart_padded (Nat.zero_le _) hsixty (by omega),
    readFraction_fractionChars (Nat.mod_lt t.nanos (by decide : 0 < 1000000000))]
  exact assemble_parts t

end Rfc3339

/-! ### Instants that no clock gives -/

/-- A leap second that does not end a minute: it is one, and its second is another than 59. -/
theorem Instant.of_not_leapLast {t : Instant} (h : ¬t.LeapLast) :
    1000000000 ≤ t.nanos ∧ t.second % 60 ≠ 59 :=
  Classical.not_imp.mp h

/-- The time that is read where an instant was written. A leap second that does not end a minute
shows as the second after its own, so it is read as that second, with the nanoseconds that it has
beyond the thousand million. -/
def Instant.carried (t : Instant) : ClockTime :=
  if h : t.LeapLast then ⟨t, h⟩
  else
    have hodd := Instant.of_not_leapLast h
    ⟨⟨t.day, t.second + 1, t.nanos - 1000000000, t.minDay_le, t.le_maxDay,
      have := t.second_lt
      by omega, have := t.nanos_lt
      by omega⟩, fun hle => by
        have := t.nanos_lt
        change 1000000000 ≤ t.nanos - 1000000000 at hle
        omega⟩

namespace Instant

/-- What is read is what was written if the leap second ends its minute. -/
theorem carried_of_leapLast {t : Instant} (h : t.LeapLast) : (t.carried : Instant) = t := by
  rw [carried, dif_pos h]

/-- An odd leap second is carried to the next second of its day. There is one, because the
odd second is not the last one of its minute. -/
theorem carried_of_not_leapLast {t : Instant} (h : ¬t.LeapLast) :
    t.carried.day = t.day ∧ t.carried.second = t.second + 1 ∧
      t.carried.nanos + 1000000000 = t.nanos := by
  rw [carried, dif_neg h]
  exact ⟨rfl, rfl, Nat.sub_add_cancel (of_not_leapLast h).1⟩

/-- The instants that are read as they were are those whose leap second, if they are one, ends a
minute. All others lose a second's worth of nanoseconds. -/
theorem carried_eq_iff (t : Instant) : (t.carried : Instant) = t ↔ t.LeapLast := by
  refine ⟨fun heq => ?_, carried_of_leapLast⟩
  rw [← heq]
  exact t.carried.leapLast

end Instant

namespace Rfc3339

/-- An odd leap second and the time that it is carried to are written alike: both show the second
after the odd one, with the same fraction. The minute does not change, because the odd second is
not the last one of its minute. -/
theorem render_carried (t : Instant) : render t.carried = render t := by
  by_cases h : t.LeapLast
  · rw [Instant.carried_of_leapLast h]
  · obtain ⟨hday, hsecond, hnanos⟩ := Instant.carried_of_not_leapLast h
    have hodd := Instant.of_not_leapLast h
    have hbound := t.nanos_lt
    have hhour : (t.second + 1) / 3600 = t.second / 3600 := by omega
    have hminute : (t.second + 1) / 60 % 60 = t.second / 60 % 60 := by omega
    have hshown : (t.second + 1) % 60 + t.carried.nanos / 1000000000
        = t.second % 60 + t.nanos / 1000000000 := by omega
    have hfraction : t.carried.nanos % 1000000000 = t.nanos % 1000000000 := by omega
    rw [render, render, chars_eq, chars_eq, hday, hsecond, hhour, hminute, hshown, hfraction]

/-- What was written of any instant is read as the time that it is carried to: the two are
written alike, and a clock's time is read back. It holds of every value of the type, so
nothing has to be assumed about where a time comes from. -/
theorem parse_render (t : Instant) : parse (render t) = .ok t.carried := by
  rw [← render_carried]
  exact parse_render_clockTime t.carried

end Rfc3339
end Keyring
