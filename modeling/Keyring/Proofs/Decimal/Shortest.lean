import Keyring.Proofs.Decimal.Interval
import Mathlib.Data.List.TakeWhile

/-!
# `Keyring.Proofs.Decimal.Shortest`: shortest digits tell floats apart

The digits of a float are a point of its interval on the first grid that has
one. With seventeen digits a grid is finer than any interval of 64 bits, so the
search succeeds, and no point is in the intervals of two floats. The theorems:

* `Interval.isSome_onGrid?`: a grid finer than an interval has a point in it.
* `Digits.value_ofPoint`: the digits of a point stand for it.
* `Binary.holds_shortest`: the shortest digits stand for a number of the interval.
* `Binary.bits_eq_of_value_shortest`: digits of one value come from one float.
-/

set_option autoImplicit false

namespace Keyring.Decimal

/-! ### One grid -/

namespace Interval

variable {i : Interval} {tie : Tie}

/-- A quotient that is said to be in an interval is in it. The program compares products of
natural numbers instead of quotients. -/
theorem holds_of_contains (hi : 0 < i.den) {num den : Nat} (hden : 0 < den)
    (h : i.contains num den = true) : i.Holds (num / den) := by
  have hi' : (0 : Rat) < i.den := Nat.cast_pos.2 hi
  have hden' : (0 : Rat) < den := Nat.cast_pos.2 hden
  unfold contains at h
  split at h
  · rename_i hclosed
    simp only [Bool.and_eq_true, decide_eq_true_eq] at h
    -- The ends belong to the interval, and the comparisons are not strict.
    obtain ⟨hlow, hhigh⟩ := h
    refine ⟨?_, ?_, fun hopen => absurd hclosed (by rw [hopen]; decide)⟩
    · rw [div_le_div_iff₀ hi' hden']
      exact_mod_cast hlow
    · rw [div_le_div_iff₀ hden' hi']
      exact_mod_cast hhigh
  · simp only [Bool.and_eq_true, decide_eq_true_eq] at h
    -- The ends do not belong to it, and neither is reached.
    have hlow : (i.low : Rat) / i.den < num / den := by
      rw [div_lt_div_iff₀ hi' hden']
      exact_mod_cast h.1
    have hhigh : (num : Rat) / den < i.high / i.den := by
      rw [div_lt_div_iff₀ hden' hi']
      exact_mod_cast h.2
    exact ⟨hlow.le, hhigh.le, fun _ => ⟨hlow.ne, hhigh.ne⟩⟩

/-- A quotient strictly between the ends is in the interval, whether or not it contains its
ends. -/
theorem contains_of_lt {num den : Nat} (hlow : i.low * den < num * i.den)
    (hhigh : num * i.den < i.high * den) : i.contains num den = true := by
  unfold contains
  split
  · simp [hlow.le, hhigh.le]
  · simp [hlow, hhigh]

/-- A point that is taken from a grid is in the interval, because it was tested, in each way
that the two neighbours of the value can be chosen between. -/
theorem holds_of_onGrid? (hi : 0 < i.den) {k : Int} {point : Nat}
    (h : i.onGrid? tie k = some point) : i.Holds (point * 10 ^ k) := by
  have hpoint : i.contains (point * Nat.pow 10 k.toNat) (Nat.pow 10 (-k).toNat) = true := by
    unfold onGrid? at h
    simp only at h
    split at h
    · rename_i hboth
      simp only [Bool.and_eq_true] at hboth
      split at h
      · exact Option.some.inj h ▸ hboth.1
      · exact Option.some.inj h ▸ hboth.2
    · split at h
      · rename_i hbelow
        exact Option.some.inj h ▸ hbelow
      · split at h
        · rename_i habove
          exact Option.some.inj h ▸ habove
        · cases h
  -- The scaled point is tested; divided by the scale it is the point itself.
  have hpow : (point : Rat) * 10 ^ k
      = (point * Nat.pow 10 k.toNat : Nat) / (Nat.pow 10 (-k).toNat : Nat) := by
    rw [zpow_eq_div (b := 10) Nat.cast_ofNat, Nat.cast_mul, mul_div_assoc]
  rw [hpow]
  exact holds_of_contains hi (Nat.pow_pos (by decide)) hpoint

/-- A grid finer than the interval has a point in it: of the two neighbours of the value one
is within the ends. The program tries both neighbours for each length, so the search ends at
such a grid at the latest. -/
theorem isSome_onGrid? {k : Int} (hlow : i.low ≤ i.value) (hhigh : i.value < i.high)
    (hi : 0 < i.den) (hstep : (10 : Rat) ^ k < (i.high - i.low : Nat) / i.den) :
    (i.onGrid? tie k).isSome := by
  -- The step in natural numbers: both powers of ten are scaled to be whole.
  have hstep' : i.den * Nat.pow 10 k.toNat < (i.high - i.low) * Nat.pow 10 (-k).toNat := by
    have hi' : (0 : Rat) < i.den := Nat.cast_pos.2 hi
    have hup : (0 : Rat) < (Nat.pow 10 (-k).toNat : Nat) :=
      Nat.cast_pos.2 (Nat.pow_pos (by decide))
    rw [zpow_eq_div (b := 10) Nat.cast_ofNat, div_lt_div_iff₀ hup hi'] at hstep
    rw [Nat.mul_comm]
    exact_mod_cast hstep
  unfold onGrid?
  simp only
  -- From here on only these products and the quotient of the two matter.
  generalize hup : Nat.pow 10 (-k).toNat = up at *
  generalize hdown : Nat.pow 10 k.toNat = down at *
  have hupPos : 0 < up := hup ▸ Nat.pow_pos (by decide)
  have hdownPos : 0 < down := hdown ▸ Nat.pow_pos (by decide)
  have hunit : 0 < i.den * down := Nat.mul_pos hi hdownPos
  have hfloor := Nat.div_add_mod (i.value * up) (i.den * down)
  have hmod := Nat.mod_lt (i.value * up) hunit
  generalize i.value * up / (i.den * down) = floor at *
  generalize i.value * up % (i.den * down) = rest at *
  have h1 := Nat.mul_le_mul_right up hlow
  have h2 := Nat.mul_lt_mul_of_pos_right hhigh hupPos
  have hdist : (i.high - i.low) * up = i.high * up - i.low * up := Nat.sub_mul ..
  have hbelow : floor * down * i.den = i.den * down * floor := by ring
  have habove : (floor + 1) * down * i.den = i.den * down * floor + i.den * down := by ring
  have hone : i.contains (floor * down) up = true ∨ i.contains ((floor + 1) * down) up = true := by
    -- If the lower neighbour is not above the low end, the upper one is within the ends.
    rcases Nat.lt_or_ge (i.low * up) (floor * down * i.den) with hlt | hge
    · exact .inl (contains_of_lt hlt (by omega))
    · exact .inr (contains_of_lt (by omega) (by omega))
  split
  · split <;> rfl
  · split
    · rfl
    · rename_i hnotBelow
      rw [if_pos (hone.resolve_left hnotBelow)]
      rfl

/-- The search takes a point of the interval if one of its grids has one. Induction on the
grids that are left. -/
theorem holds_search (hi : 0 < i.den) (lead : Int) {n : Nat}
    (hn : (i.onGrid? tie (lead + 1 - n)).isSome) :
    ∀ grids count : Nat, count ≤ n → n < count + grids →
      i.Holds ((i.search tie lead grids count).1 * 10 ^ (i.search tie lead grids count).2) := by
  intro grids
  induction grids with
  | zero => omega
  | succ grids ih =>
      intro count hcount hlt
      rw [search]
      cases hgrid : i.onGrid? tie (lead + 1 - count) with
      | some point => exact holds_of_onGrid? hi hgrid
      | none =>
          refine ih (count + 1) ?_ (by omega)
          -- The grid that is known to have a point is not this one, which has none.
          refine Nat.lt_of_le_of_ne hcount fun heq => ?_
          rw [← heq, hgrid] at hn
          cases hn

end Interval

/-! ### The first digit -/

/-- A positive quotient has at least as many digits as are counted. The cases are whether the
quotient is below one. -/
theorem pow_floorLog10_le {num den : Nat} (hnum : 0 < num) (hden : 0 < den) :
    (10 : Rat) ^ floorLog10 num den ≤ num / den := by
  have hden' : (0 : Rat) < den := Nat.cast_pos.2 hden
  rw [le_div_iff₀ hden', floorLog10]
  split
  · rename_i hle
    -- At least one: the digits of the whole part are counted.
    have hdiv : 0 < num / den := Nat.div_pos hle hden
    generalize hlen : (Nat.toDigits 10 (num / den)).length = len
    have hpow : 10 ^ (len - 1) ≤ num / den := by
      rcases Nat.eq_zero_or_pos (len - 1) with hzero | hpos
      · rw [hzero]
        exact hdiv
      · rw [← Nat.not_lt, ← Nat.length_toDigits_le_iff (by decide) hpos, hlen]
        omega
    have hlenPos : 0 < len := hlen ▸ List.length_pos_iff.2 Nat.toDigits_ne_nil
    have hlead : (len : Int) - 1 = (len - 1 : Nat) := by omega
    rw [hlead, zpow_natCast]
    exact_mod_cast (Nat.mul_le_mul_right den hpow).trans (Nat.div_mul_le_self num den)
  · rename_i hlt
    -- Below one: the zeros after the point are the digits of the rounded inverse.
    generalize hlen : (Nat.toDigits 10 ((den + num - 1) / num - 1)).length = len
    have hpos : 0 < len := hlen ▸ List.length_pos_iff.2 Nat.toDigits_ne_nil
    have hpow := (Nat.length_toDigits_le_iff (by decide) hpos).1 hlen.le
    have hle : den ≤ 10 ^ len * num := by
      have hceil : (den + num - 1) / num < 10 ^ len + 1 := by omega
      have := (Nat.div_lt_iff_lt_mul hnum).1 hceil
      rw [Nat.succ_mul] at this
      omega
    rw [zpow_neg, zpow_natCast, inv_mul_le_iff₀ (by positivity)]
    exact_mod_cast hle

/-! ### The shortest digits -/

/-- The decimal digits of a number are digits. It is the library's lemma in the form in which
it is asked for here. -/
theorem isDigit_toDigits (n : Nat) : ∀ c ∈ Nat.toDigits 10 n, c.isDigit = true :=
  fun _ => Nat.isDigit_of_mem_toDigits (by decide) (by decide)

namespace Digits

/-- The number that digits stand for. -/
def value (d : Digits) : Rat :=
  Nat.ofDigitChars 10 d.digits 0 * 10 ^ (d.lead + 1 - d.digits.length)

/-- The digits of a point with the zeros at its end put back are those of its number. -/
theorem toDigits_eq_ofPoint (point : Nat) (k : Int) : ∃ zeros,
    Nat.toDigits 10 point = (ofPoint point k).digits ++ List.replicate zeros '0' := by
  have hzeros : ∀ c ∈ ((Nat.toDigits 10 point).reverse.takeWhile (· == '0')).reverse, c = '0' :=
    fun c hc => by
      simpa using List.mem_takeWhile_imp (List.mem_reverse.1 hc)
  refine ⟨((Nat.toDigits 10 point).reverse.takeWhile (· == '0')).reverse.length, ?_⟩
  rw [← List.eq_replicate_of_mem hzeros]
  show _ = (List.dropWhile _ _).reverse ++ _
  rw [← List.reverse_append, List.takeWhile_append_dropWhile, List.reverse_reverse]

/-- What is kept of the digits of a point are digits. The zeros at the end that were taken
away leave a beginning of the digits. -/
theorem isDigit_of_mem_ofPoint {point : Nat} {k : Int} :
    ∀ c ∈ (ofPoint point k).digits, c.isDigit = true := by
  obtain ⟨zeros, hzeros⟩ := toDigits_eq_ofPoint point k
  intro c hc
  refine isDigit_toDigits point c ?_
  rw [hzeros]
  exact List.mem_append_left _ hc

/-- The digits of a point stand for it: the zeros that were cut off its end are kept in the
place of the first digit. So the form that is printed and the number that was searched for
are the same number. -/
theorem value_ofPoint (point : Nat) (k : Int) : (ofPoint point k).value = point * 10 ^ k := by
  obtain ⟨zeros, hzeros⟩ := toDigits_eq_ofPoint point k
  have hpoint : (point : Rat) = Nat.ofDigitChars 10 (ofPoint point k).digits 0 * 10 ^ zeros := by
    have h : Nat.ofDigitChars 10 (Nat.toDigits 10 point) 0 = point := Nat.ofDigitChars_ten_toDigits
    rw [hzeros, Nat.ofDigitChars_append, Nat.ofDigitChars_replicate_zero, Nat.mul_comm] at h
    exact_mod_cast h.symm
  have hlead : (ofPoint point k).lead + 1 - (ofPoint point k).digits.length = zeros + k := by
    show ((Nat.toDigits 10 point).length - 1 + k : Int) + 1 - _ = _
    rw [hzeros, List.length_append, List.length_replicate]
    omega
  rw [value, hlead, hpoint, zpow_add₀ (by decide), zpow_natCast, mul_assoc]

end Digits

namespace Binary

variable {f : Format} {x : Binary f} {tie : Tie}

/-- The fraction of a float has at most one bit more than is stored. -/
theorem decode_lt (x : Binary f) : x.decode.1 < 2 ^ (f.fractionBits + 1) := by
  have hmod := Nat.mod_lt x.bits (Nat.two_pow_pos f.fractionBits)
  rw [decode_eq, Nat.pow_succ]
  split
  · show x.bits % _ < _
    omega
  · show x.bits % _ + _ < _
    omega

/-- A float of at most 53 bits is less than `10 ^ 16` times as far from zero as its interval
is wide. So a grid of seventeen digits is finer than the interval. -/
theorem value_lt_mul_width (hf : f.fractionBits ≤ 52) (hx : x.bits ≠ 0) :
    x.interval.value < 10 ^ 16 * (x.interval.high - x.interval.low) := by
  have hpos := x.decode_pos hx
  have hlt := x.decode_lt
  have hone : 2 ^ f.fractionBits ≤ 2 ^ 52 := Nat.pow_le_pow_right (by decide) hf
  have hscale : 0 < Nat.pow 2 x.decode.2.toNat := Nat.two_pow_pos _
  have hwidth : x.interval.high - x.interval.low
      = (2 + x.quarters) * Nat.pow 2 x.decode.2.toNat := by
    show (4 * x.decode.1 + 2) * _ - (4 * x.decode.1 - x.quarters) * _ = _
    rw [← Nat.sub_mul]
    congr 1
    unfold quarters
    split <;> omega
  -- Where the interval is narrow the float is the first of its binade.
  have hmantissa : 4 * x.decode.1 < 10 ^ 16 * (2 + x.quarters) := by
    unfold quarters
    split
    · rename_i h
      simp only [Bool.and_eq_true, beq_iff_eq] at h
      omega
    · omega
  rw [hwidth, ← Nat.mul_assoc]
  exact Nat.mul_lt_mul_of_pos_right hmantissa hscale

/-- The shortest digits are those of the point that the search takes, of up to seventeen
digits. -/
theorem shortest_eq (x : Binary f) (tie : Tie) : x.shortest tie =
    let found := x.interval.search tie (floorLog10 x.interval.value x.interval.den) 17 1
    .ofPoint found.1 found.2 :=
  rfl

/-- The shortest digits of a float stand for a number in its interval: seventeen digits are
enough to find one. How few digits are found is left open; texts only have to be read back. -/
theorem holds_shortest (tie : Tie) (hf : f.fractionBits ≤ 52) (hx : x.bits ≠ 0) :
    x.interval.Holds (x.shortest tie).value := by
  have hscale : 0 < Nat.pow 2 x.decode.2.toNat := Nat.two_pow_pos _
  have hden : 0 < x.interval.den := Nat.mul_pos (by decide) (Nat.two_pow_pos _)
  have hvalue : 0 < x.interval.value :=
    Nat.mul_pos (Nat.mul_pos (by decide) (x.decode_pos hx)) hscale
  have hlow : x.interval.low ≤ x.interval.value :=
    Nat.mul_le_mul_right _ (Nat.sub_le _ _)
  have hhigh : x.interval.value < x.interval.high :=
    Nat.mul_lt_mul_of_pos_right (by omega) hscale
  have hlead := pow_floorLog10_le hvalue hden
  have hwidth := value_lt_mul_width hf hx
  rw [shortest_eq, Digits.value_ofPoint]
  -- Seventeen digits make a grid that is finer than the interval.
  refine Interval.holds_search hden _ (n := 17) ?_ 17 1 (by decide) (by decide)
  refine Interval.isSome_onGrid? hlow hhigh hden ?_
  generalize floorLog10 x.interval.value x.interval.den = lead at *
  have hden' : (0 : Rat) < x.interval.den := Nat.cast_pos.2 hden
  refine lt_of_mul_lt_mul_left (a := (10 : Rat) ^ 16) ?_ (by positivity)
  calc (10 : Rat) ^ 16 * 10 ^ (lead + 1 - (17 : Nat))
      = 10 ^ lead := by
        rw [← zpow_natCast, ← zpow_add₀ (by decide)]
        congr 1
        push_cast
        ring
    _ ≤ x.interval.value / x.interval.den := hlead
    _ < (10 ^ 16 * (x.interval.high - x.interval.low) : Nat) / x.interval.den :=
        div_lt_div_of_pos_right (Nat.cast_lt.2 hwidth) hden'
    _ = 10 ^ 16 * ((x.interval.high - x.interval.low : Nat) / x.interval.den) := by
        rw [Nat.cast_mul, mul_div_assoc]
        push_cast
        rfl

/-- The shortest digits of a float are digits. They are the digits of a point of the float's
interval. -/
theorem isDigit_of_mem_shortest : ∀ c ∈ (x.shortest tie).digits, c.isDigit = true := by
  rw [shortest_eq]
  exact Digits.isDigit_of_mem_ofPoint

/-- The shortest digits of a float that is not zero stand for a positive number, because the
interval lies above zero. -/
theorem value_shortest_pos (hf : f.fractionBits ≤ 52) (hx : x.bits ≠ 0) :
    0 < (x.shortest tie).value := by
  have hnonneg : (0 : Rat) ≤ f.units (x.bits - 1) := Nat.cast_nonneg _
  have hunits : (0 : Rat) < f.units (x.bits - 1 + 1) :=
    Nat.cast_pos.2 (Nat.zero_lt_of_lt (Format.units_strictMono (Nat.succ_pos _)))
  refine lt_of_lt_of_le ?_ (halfway_bounds hx (holds_shortest tie hf hx)).1
  exact mul_pos (by linarith) (zpow_pos two_pos _)

/-- Digits of one value come from floats of the same bits: the value is in both intervals,
and intervals of two floats have no common number. So no two floats share their digits, of
whatever size they are. -/
theorem bits_eq_of_value_shortest {y : Binary f} (hpos : f.fractionBits ≠ 0)
    (hf : f.fractionBits ≤ 52) (hx : x.bits ≠ 0) (hy : y.bits ≠ 0)
    (h : (x.shortest tie).value = (y.shortest tie).value) : x.bits = y.bits := by
  refine bits_eq_of_holds hpos hx hy (holds_shortest tie hf hx) ?_
  rw [h]
  exact holds_shortest tie hf hy

end Binary
end Keyring.Decimal
