import Mathlib.FieldTheory.Finite.Basic
import Keyring.Curve.Modular

/-!
# `Keyring.Proofs.Curve.Modular`: powers and inverses modulo a prime

What the functions on reduced numbers compute is said in `ZMod`. The theorems:

* `foldl_bits`: a loop that doubles a count at each binary digit, and adds one
  where the digit is set, ends with the number that has these digits.
* `cast_powDigits`, `cast_pow`, `cast_inv`, `cast_sub`: powers, inverses and
  differences.
-/

set_option autoImplicit false

namespace Keyring.Modular

/-- A loop over the binary digits of a number keeps a relation to the number that was read so
far. Induction on the number of digits that are left. The relation is a parameter, so that
powers modulo a number and multiples of a point are one lemma. -/
theorem foldl_bits {α : Type} {R : α → Nat → Prop} {step : α → Bool → α}
    (hfalse : ∀ acc k, R acc k → R (step acc false) (2 * k))
    (htrue : ∀ acc k, R acc k → R (step acc true) (2 * k + 1)) (width n : Nat) :
    ∀ (acc : α) (k : Nat), R acc k →
      R ((bits width n).foldl step acc) (k * 2 ^ width + n % 2 ^ width) := by
  induction width with
  | zero =>
      intro acc k h
      rw [Nat.pow_zero, Nat.mul_one, Nat.mod_one]
      exact h
  | succ width ih =>
      intro acc k h
      show R ((bits width n).foldl step (step acc (n.testBit width))) _
      rw [Nat.pow_succ 2 width, Nat.mod_mul, ← Nat.toNat_testBit]
      -- The highest digit that is left is the next one that the loop looks at.
      cases n.testBit width with
      | false =>
          have hread := ih _ _ (hfalse acc k h)
          have hvalue : 2 * k * 2 ^ width + n % 2 ^ width
              = k * (2 ^ width * 2) + (n % 2 ^ width + 2 ^ width * false.toNat) := by
            rw [Bool.toNat_false]
            ring
          rwa [hvalue] at hread
      | true =>
          have hread := ih _ _ (htrue acc k h)
          have hvalue : (2 * k + 1) * 2 ^ width + n % 2 ^ width
              = k * (2 ^ width * 2) + (n % 2 ^ width + 2 ^ width * true.toNat) := by
            rw [Bool.toNat_true]
            ring
          rwa [hvalue] at hread

/-- The loop over all binary digits of a number ends in the relation to that number, if the
number fits into the digits. -/
theorem foldl_bits_of_lt {α : Type} {R : α → Nat → Prop} {step : α → Bool → α} {acc : α}
    {width n : Nat} (hfalse : ∀ acc k, R acc k → R (step acc false) (2 * k))
    (htrue : ∀ acc k, R acc k → R (step acc true) (2 * k + 1)) (hn : n < 2 ^ width)
    (h : R acc 0) : R ((bits width n).foldl step acc) n := by
  have hread := foldl_bits hfalse htrue width n acc 0 h
  rwa [Nat.zero_mul, Nat.zero_add, Nat.mod_eq_of_lt hn] at hread

/-- A power by the lowest binary digits of the exponent; there may be fewer than 256. -/
def powDigits (width m base exponent : Nat) : Nat :=
  (bits width exponent).foldl
    (fun acc bit =>
      let square := acc * acc % m
      if bit then square * base % m else square) 1

/-- A power is the power in `ZMod`, if the digits are all that the exponent has. Each digit
squares what was computed, and a set one multiplies by the base. -/
theorem cast_powDigits (m base : Nat) {width exponent : Nat} (h : exponent < 2 ^ width) :
    ((powDigits width m base exponent : Nat) : ZMod m) = (base : ZMod m) ^ exponent := by
  refine foldl_bits_of_lt (R := fun acc k => ((acc : Nat) : ZMod m) = (base : ZMod m) ^ k)
    ?_ ?_ h ?_
  · intro acc k hacc
    show ((acc * acc % m : Nat) : ZMod m) = _
    rw [ZMod.natCast_mod, Nat.cast_mul, hacc, two_mul, pow_add]
  · intro acc k hacc
    show ((acc * acc % m * base % m : Nat) : ZMod m) = _
    rw [ZMod.natCast_mod, Nat.cast_mul, ZMod.natCast_mod, Nat.cast_mul, hacc, two_mul, pow_succ,
      pow_add]
  · rw [Nat.cast_one, pow_zero]

/-- A power is the power in `ZMod`, for exponents of up to 256 binary digits. The relation of
the loop is that the accumulator is the power with the digits that were read. -/
theorem cast_pow (m base : Nat) {exponent : Nat} (h : exponent < 2 ^ 256) :
    ((pow m base exponent : Nat) : ZMod m) = (base : ZMod m) ^ exponent :=
  cast_powDigits m base h

/-- A power is reduced, since each step of the loop ends with a reduction. -/
theorem powDigits_lt {m : Nat} (hm : 1 < m) (width base exponent : Nat) :
    powDigits width m base exponent < m := by
  have hmod : ∀ x : Nat, x % m < m := fun x => Nat.mod_lt x (by omega)
  exact foldl_bits (R := fun acc _ => acc < m) (fun acc _ _ => hmod _) (fun acc _ _ => hmod _)
    width exponent 1 0 hm

/-- An inverse is the inverse in `ZMod`. The program computes it by Fermat's theorem as a
power, and zero is taken to zero on both sides. The bounds are those under which the exponent
fits into the loop. -/
theorem cast_inv {p : Nat} [Fact p.Prime] (htwo : 2 < p) (hp : p < 2 ^ 256) (n : Nat) :
    ((inv p n : Nat) : ZMod p) = (n : ZMod p)⁻¹ := by
  rw [inv, cast_pow p n (by omega)]
  -- Zero has no inverse, and its power is zero as its inverse in a field is by convention.
  by_cases hzero : (n : ZMod p) = 0
  · rw [hzero, inv_zero, zero_pow (by omega)]
  · refine eq_inv_of_mul_eq_one_left ?_
    rw [← pow_succ, show p - 2 + 1 = p - 1 by omega, ZMod.pow_card_sub_one_eq_one hzero]

/-- A difference is the difference in `ZMod`, if what is taken away is reduced: the modulus
is added first, so that nothing goes below zero. Without the bound the subtraction of natural
numbers could stop at zero. -/
theorem cast_sub {m b : Nat} (h : b ≤ m) (a : Nat) :
    ((sub m a b : Nat) : ZMod m) = (a : ZMod m) - b := by
  rw [sub, ZMod.natCast_mod, Nat.cast_add, Nat.cast_sub h, ZMod.natCast_self, zero_sub,
    sub_eq_add_neg]

end Keyring.Modular
