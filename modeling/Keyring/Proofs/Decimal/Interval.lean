import Keyring.Decimal.Shortest
import Mathlib.Algebra.Order.Field.Power
import Mathlib.Data.Rat.Cast.Order
import Mathlib.Tactic.LinearCombination
import Mathlib.Tactic.Linarith
import Mathlib.Tactic.Ring

/-!
# `Keyring.Proofs.Decimal.Interval`: the numbers that round to a float

The bits of a float count the floats upwards, so from some bits to the next the
magnitude grows by the gap between two neighbours. The interval of a float
reaches from halfway below it to halfway above it. The theorems:

* `units_succ`: the gap between neighbours, a power of two.
* `interval_low`, `interval_high`: the ends of an interval.
* `bits_eq_of_holds`: no number is in the intervals of two floats.
-/

set_option autoImplicit false

namespace Keyring.Decimal

/-! ### Neighbours -/

namespace Format

variable {f : Format}

/-- The power of two that the gap above a float is, in units of the smallest one. -/
def binade (f : Format) (bits : Nat) : Nat := bits / 2 ^ f.fractionBits - 1

/-- The magnitude at some bits, in units of the smallest positive float. -/
def units (f : Format) (bits : Nat) : Nat :=
  if bits / 2 ^ f.fractionBits = 0 then bits
  else (bits % 2 ^ f.fractionBits + 2 ^ f.fractionBits) * 2 ^ f.binade bits

/-- Below the first binade the magnitude is the fraction itself. There the exponent is zero,
and the floats have no hidden bit. -/
theorem units_of_lt {m : Nat} (h : m < 2 ^ f.fractionBits) : f.units m = m := by
  rw [units, if_pos (Nat.div_eq_of_lt h)]

/-- The magnitude at the bits of a binade and a fraction: the fraction with its leading one,
doubled once for each binade. -/
theorem units_succ_mul_add (e : Nat) {m : Nat} (h : m < 2 ^ f.fractionBits) :
    f.units (2 ^ f.fractionBits * (e + 1) + m) = (m + 2 ^ f.fractionBits) * 2 ^ e := by
  have hdiv : (2 ^ f.fractionBits * (e + 1) + m) / 2 ^ f.fractionBits = e + 1 := by
    rw [Nat.mul_add_div (Nat.two_pow_pos _), Nat.div_eq_of_lt h, Nat.add_zero]
  rw [units, if_neg (by omega), Nat.mul_add_mod, Nat.mod_eq_of_lt h, binade, hdiv]
  rfl

/-- The binade of given bits. The first two rows of bits share one, because numbers below the
smallest normal one have the same gap as those above it. -/
theorem binade_mul_add (e : Nat) {m : Nat} (h : m < 2 ^ f.fractionBits) :
    f.binade (2 ^ f.fractionBits * e + m) = e - 1 := by
  rw [binade, Nat.mul_add_div (Nat.two_pow_pos _), Nat.div_eq_of_lt h, Nat.add_zero]

/-- From one float to the next the magnitude grows by the gap. At the end of a binade the
fraction starts again, and the leading one makes up for it. -/
theorem units_succ (bits : Nat) : f.units (bits + 1) = f.units bits + 2 ^ f.binade bits := by
  have hm := Nat.mod_lt bits (Nat.two_pow_pos f.fractionBits)
  rw [← Nat.div_add_mod bits (2 ^ f.fractionBits), binade_mul_add _ hm]
  generalize bits / 2 ^ f.fractionBits = e at *
  generalize bits % 2 ^ f.fractionBits = m at *
  -- The next float is in the same binade, or it begins the next one.
  rcases Nat.lt_or_ge (m + 1) (2 ^ f.fractionBits) with hnext | hnext
  · cases e with
    | zero =>
      rw [Nat.mul_zero, Nat.zero_add, units_of_lt hm, units_of_lt hnext]
      rfl
    | succ e =>
      rw [Nat.add_assoc, units_succ_mul_add e hnext, units_succ_mul_add e hm]
      show _ = _ + 2 ^ e
      ring
  · have hlast : m + 1 = 2 ^ f.fractionBits := by omega
    -- The fraction is full: the carry raises the exponent and clears the fraction.
    have hcarry : 2 ^ f.fractionBits * e + m + 1 = 2 ^ f.fractionBits * (e + 1) + 0 := by
      rw [Nat.add_assoc, hlast]
      rfl
    rw [hcarry, units_succ_mul_add e (Nat.two_pow_pos _)]
    cases e with
    | zero =>
      rw [Nat.zero_add, Nat.mul_zero, Nat.zero_add, units_of_lt hm, ← hlast]
      exact Nat.mul_one _
    | succ e =>
      rw [units_succ_mul_add e hm, ← hlast]
      show _ = _ + 2 ^ e
      ring

/-- Floats without a sign are ordered as their bits are, because every gap is positive. -/
theorem units_strictMono : StrictMono f.units :=
  strictMono_nat_of_lt_succ fun bits => by
    rw [units_succ]
    exact Nat.lt_add_of_pos_right (Nat.two_pow_pos _)

/-- The point halfway between a float and the next. -/
def halfway (f : Format) (bits : Nat) : Rat :=
  (f.units bits + f.units (bits + 1)) / 2 * 2 ^ f.minPower

/-- The points halfway between neighbours are ordered as the bits are, so the stretches
between them do not meet. -/
theorem halfway_strictMono : StrictMono f.halfway := by
  intro a b hab
  have h₁ : (f.units a : Rat) < f.units b := Nat.cast_lt.2 (units_strictMono hab)
  have h₂ : (f.units (a + 1) : Rat) < f.units (b + 1) :=
    Nat.cast_lt.2 (units_strictMono (Nat.succ_lt_succ hab))
  have hpow : (0 : Rat) < 2 ^ f.minPower := zpow_pos two_pos _
  exact mul_lt_mul_of_pos_right (by linarith) hpow

end Format

/-! ### The ends of an interval -/

/-- A power of a natural number as a quotient of natural numbers. The program keeps the two
apart so that it never leaves the natural numbers. -/
theorem zpow_eq_div {b : Nat} {c : Rat} (h : (b : Rat) = c) (q : Int) :
    c ^ q = ((Nat.pow b q.toNat : Nat) : Rat) / (Nat.pow b (-q).toNat : Nat) := by
  subst h
  rcases Int.le_total 0 q with hq | hq
  · obtain ⟨n, rfl⟩ := Int.eq_ofNat_of_zero_le hq
    simp
  · obtain ⟨n, hn⟩ := Int.eq_ofNat_of_zero_le (Int.neg_nonneg.2 hq)
    obtain rfl : q = -n := by omega
    simp

namespace Binary

variable {f : Format} (x : Binary f)

/-- The fraction and the power of two of a float, by its exponent bits. -/
theorem decode_eq : x.decode =
    if x.bits / 2 ^ f.fractionBits = 0 then (x.bits % 2 ^ f.fractionBits, f.minPower)
    else (x.bits % 2 ^ f.fractionBits + 2 ^ f.fractionBits,
      f.minPower + ((x.bits / 2 ^ f.fractionBits : Nat) - 1)) :=
  rfl

/-- The power of two of the decoded magnitude is that of the smallest positive float, raised
by the binade. -/
theorem decode_power : x.decode.2 = f.minPower + f.binade x.bits := by
  rw [decode_eq, Format.binade]
  generalize x.bits / 2 ^ f.fractionBits = e
  split
  · rename_i h
    rw [h]
    exact (Int.add_zero _).symm
  · show f.minPower + ((e : Int) - 1) = _
    omega

/-- The decoded magnitude in units of the smallest positive float. The two cases of the
exponent that decoding tells apart are one formula here. -/
theorem units_bits : f.units x.bits = x.decode.1 * 2 ^ f.binade x.bits := by
  rw [decode_eq, Format.units]
  split
  · rename_i h
    have hlt : x.bits < 2 ^ f.fractionBits := by
      rwa [Nat.div_eq_zero_iff_lt (Nat.two_pow_pos _)] at h
    rw [Format.binade, h, Nat.mod_eq_of_lt hlt]
    exact (Nat.mul_one _).symm
  · rfl

/-- A float that is not zero has a positive fraction, since its magnitude is above that of
zero. -/
theorem decode_pos (h : x.bits ≠ 0) : 0 < x.decode.1 := by
  have hunits := Format.units_strictMono (f := f) (Nat.pos_of_ne_zero h)
  rw [units_bits] at hunits
  exact Nat.pos_of_mul_pos_right (Nat.zero_lt_of_lt hunits)

/-- How far below a float its interval reaches, in quarters of the last place. -/
def quarters : Nat :=
  if x.decode.1 == 2 ^ f.fractionBits && x.decode.2 != f.minPower then 1 else 2

/-- The gap below a float is half as wide below the first one of a binade. In quarters of the
last place it is one there and two elsewhere, except at the lowest binade. -/
theorem quarters_mul (h : x.bits ≠ 0) :
    x.quarters * 2 ^ f.binade x.bits = 2 * 2 ^ f.binade (x.bits - 1) := by
  have hm := Nat.mod_lt x.bits (Nat.two_pow_pos f.fractionBits)
  have hbits := Nat.div_add_mod x.bits (2 ^ f.fractionBits)
  have hbinade : f.binade x.bits = x.bits / 2 ^ f.fractionBits - 1 := rfl
  rw [quarters, decode_power, decode_eq, hbinade]
  generalize x.bits / 2 ^ f.fractionBits = e at *
  generalize x.bits % 2 ^ f.fractionBits = m at *
  rw [← hbits] at h ⊢
  -- Only the first float of a binade has a narrower gap below it.
  rcases Nat.eq_zero_or_pos m with rfl | hpos
  · obtain ⟨k, rfl⟩ : ∃ k, e = k + 1 := Nat.exists_eq_succ_of_ne_zero fun he => h (by rw [he]; rfl)
    have hbelow : 2 ^ f.fractionBits * (k + 1) + 0 - 1
        = 2 ^ f.fractionBits * k + (2 ^ f.fractionBits - 1) := by
      rw [Nat.mul_succ]
      omega
    rw [hbelow, Format.binade_mul_add _ (by omega), if_neg (Nat.succ_ne_zero k)]
    -- The two lowest binades have the same gap, so there the gap below is not narrower.
    cases k with
    | zero => simp
    | succ k =>
      have hnext : (k : Int) + 1 ≠ 0 := by omega
      simp [hnext, pow_succ']
  · have hbelow : 2 ^ f.fractionBits * e + m - 1 = 2 ^ f.fractionBits * e + (m - 1) := by omega
    have hother : (if e = 0 then (m, f.minPower)
        else (m + 2 ^ f.fractionBits, f.minPower + ((e : Int) - 1))).1 ≠ 2 ^ f.fractionBits := by
      split
      · exact hm.ne
      · show m + _ ≠ _
        omega
    rw [hbelow, Format.binade_mul_add _ (by omega), if_neg (by simp [hother])]

/-- A quarter of a multiple of the last place of a float. All three numbers of an interval
are of this form. -/
theorem quarter_eq (n : Nat) :
    ((n * Nat.pow 2 x.decode.2.toNat : Nat) : Rat) / (4 * Nat.pow 2 (-x.decode.2).toNat : Nat)
      = n / 4 * 2 ^ f.binade x.bits * 2 ^ f.minPower := by
  have hpow : (2 : Rat) ^ x.decode.2 = 2 ^ f.binade x.bits * 2 ^ f.minPower := by
    rw [decode_power, zpow_add₀ two_ne_zero, zpow_natCast, mul_comm]
  rw [mul_assoc, ← hpow, zpow_eq_div (b := 2) Nat.cast_ofNat, Nat.cast_mul, Nat.cast_mul]
  exact mul_div_mul_comm ..

/-- The decoded magnitude in units of the smallest positive float, as a rational number. -/
theorem cast_units_bits : (f.units x.bits : Rat) = x.decode.1 * 2 ^ f.binade x.bits := by
  rw [units_bits, Nat.cast_mul, Nat.cast_pow, Nat.cast_ofNat]

/-- The upper end of the interval is halfway to the next float. A real number below that is
nearer to this float than to any above it. -/
theorem interval_high : (x.interval.high : Rat) / x.interval.den = f.halfway x.bits := by
  refine (x.quarter_eq (4 * x.decode.1 + 2)).trans ?_
  rw [Format.halfway, Format.units_succ]
  push_cast
  rw [cast_units_bits]
  ring

/-- The lower end of the interval is halfway to the float before. That gap may be narrower
than the one above. Below the first float of a binade the neighbour is nearer, and the
program takes that into account. -/
theorem interval_low (h : x.bits ≠ 0) :
    (x.interval.low : Rat) / x.interval.den = f.halfway (x.bits - 1) := by
  have hpos := x.decode_pos h
  have hgap := x.quarters_mul h
  have hunits := Format.units_succ (f := f) (x.bits - 1)
  have hle : x.quarters ≤ 4 * x.decode.1 := by
    unfold quarters
    split <;> omega
  refine (x.quarter_eq (4 * x.decode.1 - x.quarters)).trans ?_
  rw [Format.halfway]
  rw [Nat.sub_add_cancel (Nat.pos_of_ne_zero h), units_bits] at hunits ⊢
  have hgap' := congrArg (Nat.cast (R := Rat)) hgap
  have hunits' := congrArg (Nat.cast (R := Rat)) hunits
  push_cast [Nat.cast_sub hle] at hgap' hunits' ⊢
  -- The gap below in two units: as quarters of the last place and as the difference of
  -- neighbours.
  linear_combination (2 ^ f.minPower / 2 : Rat) * hunits' - (2 ^ f.minPower / 4 : Rat) * hgap'

/-- A float is even if its bits are: the leading one that decoding adds is even. -/
theorem decode_parity (hf : f.fractionBits ≠ 0) : x.decode.1 % 2 = x.bits % 2 := by
  have hdvd : 2 ∣ 2 ^ f.fractionBits := dvd_pow_self 2 hf
  have hmod : x.bits % 2 ^ f.fractionBits % 2 = x.bits % 2 := Nat.mod_mod_of_dvd _ hdvd
  rw [decode_eq]
  split
  · exact hmod
  · show (_ + 2 ^ f.fractionBits) % 2 = _
    omega

end Binary

/-! ### Intervals without common numbers -/

/-- The numbers in an interval; its ends are in it if it is closed. -/
def Interval.Holds (i : Interval) (r : Rat) : Prop :=
  (i.low : Rat) / i.den ≤ r ∧ r ≤ i.high / i.den ∧
    (i.closed = false → (i.low : Rat) / i.den ≠ r ∧ r ≠ i.high / i.den)

namespace Binary

variable {f : Format} {x y : Binary f} {r : Rat}

/-- A number that rounds to a float lies between the points halfway to its neighbours. -/
theorem halfway_bounds (hx : x.bits ≠ 0) (h : x.interval.Holds r) :
    f.halfway (x.bits - 1) ≤ r ∧ r ≤ f.halfway x.bits := by
  obtain ⟨hlow, hhigh, -⟩ := h
  rw [interval_low _ hx] at hlow
  rw [interval_high] at hhigh
  exact ⟨hlow, hhigh⟩

/-- Only a float with even bits rounds to itself from the points halfway to its neighbours.
Otherwise the interval is open. -/
theorem even_of_halfway (hf : f.fractionBits ≠ 0) (hx : x.bits ≠ 0) (h : x.interval.Holds r)
    (hr : r = f.halfway (x.bits - 1) ∨ r = f.halfway x.bits) : x.bits % 2 = 0 := by
  obtain ⟨-, -, hends⟩ := h
  rw [interval_low _ hx, interval_high] at hends
  by_contra hodd
  have hopen : x.interval.closed = false := by
    show (x.decode.1 % 2 == 0) = false
    rw [decode_parity _ hf]
    simpa using hodd
  obtain ⟨hlow, hhigh⟩ := hends hopen
  rcases hr with rfl | rfl
  · exact hlow rfl
  · exact hhigh rfl

/-- A number in the intervals of two floats cannot put one of them above the other: they
would share an end, both would be even, and neighbours are not. -/
theorem bits_le_of_holds (hf : f.fractionBits ≠ 0) (hx : x.bits ≠ 0) (hy : y.bits ≠ 0)
    (h₁ : x.interval.Holds r) (h₂ : y.interval.Holds r) : y.bits ≤ x.bits := by
  by_contra hlt
  have hxr := (halfway_bounds hx h₁).2
  have hry := (halfway_bounds hy h₂).1
  have hnext : y.bits - 1 = x.bits := by
    have hle := Format.halfway_strictMono.le_iff_le.1 (hry.trans hxr)
    omega
  rw [hnext] at hry
  have hr : r = f.halfway x.bits := le_antisymm hxr hry
  -- The floats are neighbours and `r` is halfway between them, but one of them is odd.
  have hxeven := even_of_halfway hf hx h₁ (.inr hr)
  have hyeven := even_of_halfway hf hy h₂ (.inl (hnext ▸ hr))
  omega

/-- No number is in the intervals of two floats. So digits that stand for a number in an
interval determine the float. A number between two neighbours is nearer to one of them;
exactly halfway it belongs to the one with the even last place. -/
theorem bits_eq_of_holds (hf : f.fractionBits ≠ 0) (hx : x.bits ≠ 0) (hy : y.bits ≠ 0)
    (h₁ : x.interval.Holds r) (h₂ : y.interval.Holds r) : x.bits = y.bits :=
  Nat.le_antisymm (bits_le_of_holds hf hy hx h₂ h₁) (bits_le_of_holds hf hx hy h₁ h₂)

end Binary
end Keyring.Decimal
