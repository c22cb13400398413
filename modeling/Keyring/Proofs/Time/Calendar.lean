import Keyring.Time.Calendar

/-!
# `Keyring.Proofs.Time.Calendar`: every day number is one date

`Date.ofDays` finds the year of a cycle by one quotient of a corrected day
number. The theorems:

* `yearOfCycle_eq`: what that quotient is, for a day given by its century, its
  group of four years and its place in that group.
* `isValid_ofDays`: the date of a day number is a date of the calendar.
* `toDays_ofDays`: its day number is the one that it was made from.
-/

set_option autoImplicit false

namespace Keyring.Calendar

/-- The year of a cycle that the day `d` of the cycle is in, as `Date.ofDays` finds it. -/
def yearOfCycle (d : Nat) : Nat := (d - d / 1460 + d / 36524 - d / 146096) / 365

/-- The days of a cycle before its year `y`. -/
def daysBefore (y : Nat) : Nat := 365 * y + y / 4 - y / 100

/-- The year of a cycle of the day `t` in group `q` of four years in century `f`. The last
group of a century is a day shorter, and the quotient corrects for the days that
earlier centuries lack. -/
theorem yearOfCycle_eq {f q t : Nat} (hf : f < 4) (hq : q < 25) (ht : t < 1461)
    (hlast : q = 24 → t < 1460) :
    yearOfCycle (36524 * f + 1461 * q + t) = 100 * f + 4 * q + min (t / 365) 3 := by
  have hcentury : (36524 * f + 1461 * q + t) / 36524 = f := by omega
  have hcycle : (36524 * f + 1461 * q + t) / 146096 = 0 := by omega
  unfold yearOfCycle
  rw [hcentury, hcycle]
  -- Whether the correction for leap days is one too large shows only near a group's end.
  by_cases hend : 1460 ≤ 24 * f + q + t
  · have hleap : (36524 * f + 1461 * q + t) / 1460 = 25 * f + q + 1 := by omega
    rw [hleap]
    omega
  · have hleap : (36524 * f + 1461 * q + t) / 1460 = 25 * f + q := by omega
    rw [hleap]
    omega

/-- A day of a cycle other than the last is a day of a group of four years in a century. The
last group of a century ends a day earlier. -/
theorem exists_group {d : Nat} (hd : d < 146096) :
    ∃ f q t, d = 36524 * f + 1461 * q + t ∧ f < 4 ∧ q < 25 ∧ t < 1461 ∧ (q = 24 → t < 1460) :=
  ⟨d / 36524, d % 36524 / 1461, d % 36524 % 1461, by omega, by omega, by omega, by omega,
    by omega⟩

/-- The year of a day begins on that day or before, and at most 365 days before; in
the last case it ends with a leap day. -/
theorem yearOfCycle_spec {d : Nat} (hd : d < 146097) :
    yearOfCycle d < 400 ∧ daysBefore (yearOfCycle d) ≤ d ∧
      d - daysBefore (yearOfCycle d) ≤ 365 ∧
      (d - daysBefore (yearOfCycle d) = 365 →
        yearOfCycle d % 4 = 3 ∧ (yearOfCycle d % 100 = 99 → yearOfCycle d = 399)) := by
  by_cases hlast : d = 146096
  · subst hlast
    decide
  · obtain ⟨f, q, t, rfl, hf, hq, ht, hshort⟩ := exists_group (by omega : d < 146096)
    rw [yearOfCycle_eq hf hq ht hshort]
    -- Within a group the years begin at the days 0, 365, 730 and 1095.
    have hplace : min (t / 365) 3 < 4 := by omega
    have hbefore : daysBefore (100 * f + 4 * q + min (t / 365) 3)
        = 36524 * f + 1461 * q + 365 * min (t / 365) 3 := by
      unfold daysBefore
      omega
    rw [hbefore]
    omega

/-- The month and the day of the month of a day of the year, the year beginning in March.
Only the last day, 365, is the day 29 of its month 2. -/
theorem monthDay_spec : ∀ dayOfYear < 366,
    let m := (5 * dayOfYear + 2) / 153
    let day := dayOfYear - (153 * m + 2) / 5 + 1
    let month := if m < 10 then m + 3 else m - 9
    1 ≤ month ∧ month ≤ 12 ∧ (month + 9) % 12 = m ∧ (153 * m + 2) / 5 + day = dayOfYear + 1 ∧
      1 ≤ day ∧ day ≤ (if month = 2 then 29 else monthLength 1 month) ∧
      (month = 2 → day = 29 → dayOfYear = 365) := by
  decide +kernel

/-! ### Dates of day numbers -/

/-- The place of a day in its cycle. -/
def dayOfCycle (days : Int) : Nat := ((days + 719468) % 146097).toNat

/-- The place of a day in its year, the year beginning in March. -/
def dayOfYear (days : Int) : Nat :=
  dayOfCycle days - daysBefore (yearOfCycle (dayOfCycle days))

/-- A cycle of 400 years has 146097 days. It is a remainder. -/
theorem dayOfCycle_lt (days : Int) : dayOfCycle days < 146097 := by
  unfold dayOfCycle
  omega

/-- A year has at most 366 days. The day of the year is what is left after the days of the
years before it in the cycle. -/
theorem dayOfYear_lt (days : Int) : dayOfYear days < 366 := by
  have h := (yearOfCycle_spec (dayOfCycle_lt days)).2.2.1
  unfold dayOfYear
  omega

/-- The parts of the date of a day number, in terms of the day of the cycle and the day of
the year. -/
theorem ofDays_eq (days : Int) :
    Date.ofDays days =
      let m := (5 * dayOfYear days + 2) / 153
      let month := if m < 10 then m + 3 else m - 9
      let year := (days + 719468) / 146097 * 400 + yearOfCycle (dayOfCycle days)
      ⟨if month ≤ 2 then year + 1 else year, month,
        dayOfYear days - (153 * m + 2) / 5 + 1⟩ :=
  rfl

/-- A year that a leap day ends, counted from March, is a leap year from January on. -/
theorem isLeap_of_leapDay {days : Int} (h : dayOfYear days = 365) :
    isLeap ((days + 719468) / 146097 * 400 + yearOfCycle (dayOfCycle days) + 1) = true := by
  obtain ⟨-, -, -, hleap⟩ := yearOfCycle_spec (dayOfCycle_lt days)
  obtain ⟨hfour, hhundred⟩ := hleap h
  -- From January on the year is one higher than the one that began in March.
  generalize yearOfCycle (dayOfCycle days) = y at hfour hhundred ⊢
  generalize (days + 719468) / 146097 = cycle
  simp only [isLeap, Bool.and_eq_true, Bool.or_eq_true, beq_iff_eq, bne_iff_ne]
  refine ⟨by omega, ?_⟩
  by_cases hcentury : y % 100 = 99
  · have hy : y = 399 := hhundred hcentury
    right
    omega
  · left
    omega

/-- The length of a month other than February does not depend on the year. -/
theorem monthLength_eq_of_ne_two {month : Nat} (h : month ≠ 2) (year year' : Int) :
    monthLength year month = monthLength year' month := by
  unfold monthLength
  split
  · exact absurd rfl h
  all_goals rfl

/-- The date of a day number is a date of the calendar. Only the last day of February can be
missing in a year, and such a day comes from a leap year. -/
theorem isValid_ofDays (days : Int) : (Date.ofDays days).isValid = true := by
  obtain ⟨hlow, hhigh, -, -, hday, hlength, hleap⟩ :=
    monthDay_spec (dayOfYear days) (dayOfYear_lt days)
  rw [ofDays_eq]
  simp only [Date.isValid, Bool.and_eq_true, decide_eq_true_eq]
  refine ⟨⟨⟨hlow, hhigh⟩, hday⟩, ?_⟩
  generalize hm : (if (5 * dayOfYear days + 2) / 153 < 10 then (5 * dayOfYear days + 2) / 153 + 3
    else (5 * dayOfYear days + 2) / 153 - 9) = month at *
  -- February is the only month whose length depends on the year.
  by_cases hfeb : month = 2
  · subst hfeb
    rw [if_pos rfl] at hlength
    rw [if_pos (by omega)]
    show _ ≤ if isLeap _ then 29 else 28
    split
    · exact hlength
    · rename_i hcommon
      -- Day 29 would be the leap day, and the year would have one.
      have hne : dayOfYear days - (153 * ((5 * dayOfYear days + 2) / 153) + 2) / 5 + 1 ≠ 29 :=
        fun h => hcommon (isLeap_of_leapDay (hleap rfl h))
      omega
  · rw [if_neg hfeb] at hlength
    rw [monthLength_eq_of_ne_two hfeb _ 1]
    exact hlength

/-- The day number of the date of a day number is that day number. Both count from March on,
and the year, the month and the day are put together as they were taken apart. -/
theorem toDays_ofDays (days : Int) : (Date.ofDays days).toDays = days := by
  obtain ⟨-, -, hmonth, hsum, -, -, -⟩ := monthDay_spec (dayOfYear days) (dayOfYear_lt days)
  obtain ⟨hyear, hbefore, -, -⟩ := yearOfCycle_spec (dayOfCycle_lt days)
  have hcycle : (dayOfCycle days : Int) = (days + 719468) % 146097 :=
    Int.toNat_of_nonneg (Int.emod_nonneg _ (by decide))
  have hplace : dayOfYear days + daysBefore (yearOfCycle (dayOfCycle days)) = dayOfCycle days := by
    unfold dayOfYear
    omega
  have hdays := Int.mul_ediv_add_emod (days + 719468) 146097
  rw [ofDays_eq]
  simp only [Date.toDays]
  generalize yearOfCycle (dayOfCycle days) = y at *
  generalize (days + 719468) / 146097 = cycle at *
  generalize hm : (5 * dayOfYear days + 2) / 153 = m at *
  generalize hmn : (if m < 10 then m + 3 else m - 9) = month at *
  -- Counted from March, the year is again the one of the cycle.
  have hmarch : (if month ≤ 2 then (if month ≤ 2 then cycle * 400 + y + 1 else cycle * 400 + y) - 1
      else if month ≤ 2 then cycle * 400 + y + 1 else cycle * 400 + y)
        = cycle * 400 + (y : Int) := by
    split <;> omega
  have hquotient : (cycle * 400 + (y : Int)) / 400 = cycle := by omega
  have hremainder : (cycle * 400 + (y : Int)) % 400 = y := by omega
  unfold daysBefore at hplace
  rw [hmarch, hmonth, hsum, hquotient, hremainder]
  omega

end Keyring.Calendar
