import Mathlib.FieldTheory.Finite.Extension
import Mathlib.Tactic.ComputeDegree
import Keyring.Cipher.Gcm

/-!
# `Keyring.Proofs.Cipher.Field`: the elements form a field

An element stands for a polynomial over two coefficients, and the product of two
elements for the product of their polynomials modulo x^128 + x^7 + x^2 + x + 1.
The theorems:

* `value_injective`, `value_xor`, `value_mul`: elements are the residues, their
  sum is exclusive or and their product is `mul`.
* `irreducible_modulus`: the modulus is irreducible, by Rabin's test. Squaring x
  128 times gives x, so the degree of every irreducible factor divides 128; and
  squaring it 64 times gives an element whose difference from x has an inverse,
  so no such degree is 64 or less. Both are computed with `mul` itself.
* `mul_right_cancel`: so there are no divisors of zero.
-/

set_option autoImplicit false

namespace Keyring.Gcm

open Polynomial

variable (K : Type) [Field K]

/-! ### Polynomials of elements -/

/-- The polynomial that products are reduced by. -/
noncomputable def modulus : K[X] := X ^ 128 + (X ^ 7 + X ^ 2 + X ^ 1 + X ^ 0)

/-- The modulus as a sum of powers of x. The definition is unfolded here and nowhere else. -/
theorem modulus_eq : modulus K = X ^ 128 + (X ^ 7 + X ^ 2 + X ^ 1 + X ^ 0) := by
  unfold modulus
  rfl

/-- The terms of an element from coefficient `128 - count` on, with that one as the constant. -/
noncomputable def tail (u : Element) : (count : Nat) → K[X]
  | 0 => 0
  | count + 1 => (if u.getLsbD count then 1 else 0) + X * tail u count

/-- The polynomial that an element stands for. -/
noncomputable def polynomial (u : Element) : K[X] := tail K u 128

/-- The polynomial of an element has all its 128 bits as coefficients. So what is proved of
the tails by induction on their length holds of elements. -/
theorem polynomial_eq (u : Element) : polynomial K u = tail K u 128 := by
  rw [polynomial]

-- Opened by name only: comparing two terms must not count to 128.
attribute [irreducible] modulus polynomial

/-- The coefficients that have been read after `count` bits: the bits of an element stand in
reverse, so the first coefficient is the last bit that was read. Induction on the number of
bits. -/
theorem coeff_tail (u : Element) (count i : Nat) :
    (tail K u count).coeff i = if i < count ∧ u.getLsbD (count - 1 - i) then 1 else 0 := by
  induction count generalizing i with
  | zero => simp [tail]
  | succ count ih =>
      rw [tail, coeff_add]
      -- The bit that was read last is the constant term; the others move up by one.
      cases i with
      | zero =>
          rw [coeff_X_mul_zero, add_zero]
          split <;> simp_all
      | succ i =>
          have hconstant : ((if u.getLsbD count then 1 else 0 : K[X])).coeff (i + 1) = 0 := by
            split <;> simp [coeff_one]
          rw [hconstant, coeff_X_mul, zero_add, ih]
          have hplace : count + 1 - 1 - (i + 1) = count - 1 - i := by omega
          simp only [hplace, Nat.add_lt_add_iff_right]

/-- The coefficients of an element are its bits from the highest on. The order is that of the
program, in which the highest bit stands for the constant term. -/
theorem coeff_polynomial (u : Element) (i : Nat) :
    (polynomial K u).coeff i = if i < 128 ∧ u.getLsbD (127 - i) then 1 else 0 := by
  rw [polynomial_eq]
  exact coeff_tail K u 128 i

/-- An element has a degree below 128, so it is a residue that is already reduced. -/
theorem degree_polynomial_lt (u : Element) : (polynomial K u).degree < (128 : Nat) := by
  refine (degree_lt_iff_coeff_zero _ 128).2 fun i hi => ?_
  rw [coeff_polynomial, if_neg fun h => absurd h.1 (by omega)]

/-- Different elements have different polynomials: a bit can be read off its coefficient,
because one is not zero in the field. -/
theorem polynomial_injective : Function.Injective (polynomial K) := by
  intro u v h
  apply BitVec.eq_of_getLsbD_eq
  intro i hi
  have hcoeff := congrArg (fun f => f.coeff (127 - i)) h
  simp only [coeff_polynomial, show 127 - (127 - i) = i by omega,
    show 127 - i < 128 by omega, true_and] at hcoeff
  cases hu : u.getLsbD i <;> cases hv : v.getLsbD i <;> simp [hu, hv] at hcoeff ⊢

/-- The element without bits is the polynomial zero. All its coefficients are zero. -/
theorem polynomial_zero : polynomial K 0 = 0 := by
  ext i
  simp [coeff_polynomial]

/-- The sum of polynomials is exclusive or. In characteristic two the coefficient of a bit
that both have cancels. -/
theorem polynomial_xor [CharP K 2] (u v : Element) :
    polynomial K (u ^^^ v) = polynomial K u + polynomial K v := by
  ext i
  rw [coeff_add, coeff_polynomial, coeff_polynomial, coeff_polynomial, BitVec.getLsbD_xor]
  by_cases hi : i < 128
  · cases u.getLsbD (127 - i) <;> cases v.getLsbD (127 - i) <;> simp [hi, CharTwo.add_self_eq_zero]
  · simp [hi]

/-- A polynomial times x: the coefficients move on, and the last one makes a new power. The
loop of the product replaces that power by its residue. -/
theorem X_mul_polynomial (v : Element) :
    X * polynomial K v = polynomial K (v >>> 1) + if v.getLsbD 0 then X ^ 128 else 0 := by
  ext i
  rw [coeff_add, coeff_polynomial, BitVec.getLsbD_ushiftRight]
  have hpower : (if v.getLsbD 0 then X ^ 128 else 0 : K[X]).coeff i
      = if i = 128 ∧ v.getLsbD 0 then 1 else 0 := by
    cases v.getLsbD 0 <;> simp [coeff_X_pow]
  rw [hpower]
  cases i with
  | zero => simp
  | succ i =>
      rw [coeff_X_mul, coeff_polynomial]
      -- The coefficient 127 is the one that moves out of the element.
      rcases Nat.lt_trichotomy i 127 with hlt | rfl | hgt
      · rw [show 1 + (127 - (i + 1)) = 127 - i by omega]
        simp [show i < 128 by omega, show i + 1 < 128 by omega, show i ≠ 127 by omega]
      · simp
      · simp [show ¬ i < 128 by omega, show ¬ i + 1 < 128 by omega, show i ≠ 127 by omega]

/-- The element that is a power of x. -/
def power (k : Nat) : Element := BitVec.twoPow 128 (127 - k)

/-- The element of a single bit is a power of x. The program counts the bits of an element
from the other end, and this is where the two ways of counting meet. -/
theorem polynomial_power {k : Nat} (h : k < 128) : polynomial K (power k) = X ^ k := by
  ext i
  rw [coeff_polynomial, power, BitVec.getLsbD_twoPow, coeff_X_pow]
  refine if_congr ?_ rfl rfl
  simp only [Bool.and_eq_true, decide_eq_true_eq]
  omega

/-! ### Residues -/

/-- The modulus has degree 128, which is the number of bits of an element. -/
theorem natDegree_modulus : (modulus K).natDegree = 128 := by
  rw [modulus_eq]
  compute_degree!

/-- The modulus is monic, so division by it has a remainder over every ring of coefficients. -/
theorem monic_modulus : (modulus K).Monic := by
  rw [modulus_eq]
  apply monic_X_pow_add
  compute_degree!

/-- The degree of the modulus, in the form that is compared with the degree of an element. -/
theorem degree_modulus : (modulus K).degree = (128 : Nat) := by
  rw [degree_eq_natDegree (monic_modulus K).ne_zero, natDegree_modulus]

/-- The residue that an element stands for. -/
noncomputable def value (u : Element) : AdjoinRoot (modulus K) :=
  AdjoinRoot.mk (modulus K) (polynomial K u)

/-- Different elements are different residues, because a polynomial of a lower degree that
the modulus divides is zero. With it the product of elements, which is a loop over bits, is a
product in a field. -/
theorem value_injective : Function.Injective (value K) := by
  intro u v h
  have hdvd : modulus K ∣ polynomial K u - polynomial K v := AdjoinRoot.mk_eq_mk.1 h
  have hdegree : (polynomial K u - polynomial K v).degree < (modulus K).degree := by
    rw [degree_modulus]
    exact (degree_sub_le _ _).trans_lt
      (max_lt (degree_polynomial_lt K u) (degree_polynomial_lt K v))
  -- A difference of a lower degree that the modulus divides is zero.
  exact polynomial_injective K (sub_eq_zero.1 (eq_zero_of_dvd_of_degree_lt hdvd hdegree))

/-- The element without bits is the residue zero. Taking residues is a homomorphism. -/
theorem value_zero : value K 0 = 0 := by
  rw [value, polynomial_zero, map_zero]

/-- The element of a single bit is the residue of a power of x. -/
theorem value_power {k : Nat} (h : k < 128) :
    value K (power k) = AdjoinRoot.mk (modulus K) X ^ k := by
  rw [value, polynomial_power K h, map_pow]

section

variable [CharP K 2]

/-- The sum of residues is exclusive or. In characteristic two the coefficients are added
without a carry, which is what exclusive or does. -/
theorem value_xor (u v : Element) : value K (u ^^^ v) = value K u + value K v := by
  rw [value, value, value, polynomial_xor, map_add]

/-- The two parts of a sum have one residue modulo the sum, since in characteristic two the
sum is also their difference. -/
theorem mk_eq_of_add_eq {m f g : K[X]} (h : f + g = m) : AdjoinRoot.mk m f = AdjoinRoot.mk m g := by
  apply AdjoinRoot.mk_eq_mk.2
  rw [CharTwo.sub_eq_add, h]

/-- The power 128 of x is reduced: the reduction has the bits of the other terms of the
modulus. -/
theorem mk_X_pow : AdjoinRoot.mk (modulus K) (X ^ 128 : K[X]) = value K reduction := by
  have hreduction : polynomial K reduction = X ^ 7 + X ^ 2 + X ^ 1 + X ^ 0 := by
    have hsum : reduction = power 7 ^^^ power 2 ^^^ power 1 ^^^ power 0 := by decide
    rw [hsum, polynomial_xor, polynomial_xor, polynomial_xor, polynomial_power K (by decide),
      polynomial_power K (by decide), polynomial_power K (by decide),
      polynomial_power K (by decide)]
  have hmodulus : X ^ 128 + polynomial K reduction = modulus K := by
    rw [hreduction, modulus_eq]
  exact mk_eq_of_add_eq K hmodulus

/-- One step of the loop multiplies by x: the bits move on, and the power that falls off at
the end is put back as its residue. -/
theorem value_timesX (v : Element) :
    value K (timesX v) = AdjoinRoot.mk (modulus K) X * value K v := by
  have hproduct : AdjoinRoot.mk (modulus K) X * value K v
      = value K (v >>> 1) + if v.getLsbD 0 then value K reduction else 0 := by
    rw [value, ← map_mul, X_mul_polynomial, map_add, ← mk_X_pow]
    split
    · rfl
    · rw [map_zero]
      rfl
  rw [hproduct, timesX]
  split
  · exact value_xor K _ _
  · rw [add_zero]

/-- What the loop of a product has computed: what it started with, and the terms that it has
read times the other factor. Induction on the number of terms. -/
theorem value_mulFrom (u : Element) (count : Nat) (v sum : Element) :
    value K (mulFrom u count v sum)
      = value K sum + AdjoinRoot.mk (modulus K) (tail K u count) * value K v := by
  induction count generalizing v sum with
  | zero =>
      rw [mulFrom, tail, map_zero, zero_mul, add_zero]
  | succ count ih =>
      rw [mulFrom, ih, value_timesX, tail, map_add, map_mul]
      split
      · rw [value_xor, map_one]
        ring
      · rw [map_zero]
        ring

/-- The product of elements is that of residues. The whole loop has read all terms of the
first factor. The induction over the bits is in `value_mulFrom`, whose invariant has the part
of the product that was added up so far. -/
theorem value_mul (u v : Element) : value K (mul u v) = value K u * value K v := by
  have hpolynomial : value K u = AdjoinRoot.mk (modulus K) (tail K u 128) := by
    rw [value, polynomial_eq]
  rw [mul, value_mulFrom, value_zero, zero_add, hpolynomial]

/-! ### The field -/

/-- The square of an element, and the square of that, and so on. -/
def squares : (count : Nat) → Element → Element
  | 0, u => u
  | count + 1, u => squares count (mul u u)

/-- Squaring an element `count` times raises its residue to the power 2 ^ `count`. Such
powers of x are what the test for irreducibility asks about. -/
theorem value_squares (count : Nat) (u : Element) :
    value K (squares count u) = value K u ^ 2 ^ count := by
  induction count generalizing u with
  | zero => rw [squares, pow_zero, pow_one]
  | succ count ih => rw [squares, ih, value_mul, ← pow_two, ← pow_mul, ← pow_succ']

/-- The residue of x^n - x, from that of x^n. The program computes with elements, so a power
of x in the ring can be had by computing the same power there. -/
theorem mk_X_pow_sub {n : Nat} {u : Element} (h : value K u = value K (power 1) ^ n) :
    AdjoinRoot.mk (modulus K) (X ^ n - X) = value K (u ^^^ power 1) := by
  have hx : value K (power 1) = AdjoinRoot.mk (modulus K) X := by
    rw [value_power K (by decide), pow_one]
  rw [CharTwo.sub_eq_add, map_add, map_pow, ← hx, ← h, value_xor]

/-- What x squared 64 times differs from x by. -/
def halfway : Element := 0x2f9945a9e519a7229d4c1ad657f8a686#128

/-- The inverse of `halfway`. -/
def halfwayInverse : Element := 0x180da934bf53158251c13dbb149f5279#128

/-- The power 2^64 of x, computed by 64 squarings. The kernel evaluates them on bit vectors. -/
theorem squares_power_one : squares 64 (power 1) = halfway ^^^ power 1 := by
  decide +kernel

/-- Another 64 squarings lead back to x, so the powers of x repeat after 128 of them. -/
theorem squares_halfway : squares 64 (halfway ^^^ power 1) = power 1 := by
  decide +kernel

/-- The residue of x^(2^64) - x has an inverse, which is given and checked by one product. -/
theorem mul_halfwayInverse : mul halfway halfwayInverse = power 0 := by
  decide +kernel

/-- The modulus divides x^(2^128) - x, because 128 squarings of x lead back to x. So the
degree of each irreducible factor of it divides 128. -/
theorem modulus_dvd {n : Nat} (hn : n = 2 ^ 64 * 2 ^ 64) : modulus K ∣ X ^ n - X := by
  have hsquares : value K (power 1) = value K (power 1) ^ n := by
    calc value K (power 1)
        = value K (squares 64 (squares 64 (power 1))) := by rw [squares_power_one, squares_halfway]
      _ = value K (power 1) ^ n := by rw [value_squares, value_squares, ← pow_mul, hn]
  rw [← AdjoinRoot.mk_eq_zero, mk_X_pow_sub K hsquares, BitVec.xor_self]
  exact value_zero K

/-- The modulus and x^(2^64) - x have no factor in common, since the residue of that
difference has an inverse. So no irreducible factor has a degree that divides 64. -/
theorem isCoprime_modulus {n : Nat} (hn : n = 2 ^ 64) : IsCoprime (modulus K) (X ^ n - X) := by
  have hsquares : value K (halfway ^^^ power 1) = value K (power 1) ^ n := by
    rw [← squares_power_one, value_squares, hn]
  have hinverse : AdjoinRoot.mk (modulus K) ((X ^ n - X) * polynomial K halfwayInverse)
      = AdjoinRoot.mk (modulus K) 1 := by
    rw [map_mul, mk_X_pow_sub K hsquares, BitVec.xor_assoc, BitVec.xor_self, BitVec.xor_zero,
      ← value, ← value_mul, mul_halfwayInverse, value_power K (by decide), pow_zero, map_one]
  obtain ⟨factor, hfactor⟩ := AdjoinRoot.mk_eq_mk.1 hinverse
  refine ⟨-factor, polynomial K halfwayInverse, ?_⟩
  linear_combination hfactor

/-- The modulus is irreducible: the degree of an irreducible factor of a factor of at most
half its degree would divide 128 without dividing 64. -/
theorem irreducible_modulus (hcard : Nat.card K = 2) : Irreducible (modulus K) := by
  -- The criterion asks for a factor of at most half the degree, of which g is an irreducible
  -- factor.
  have hone : modulus K ≠ 1 := fun h => by
    have hdegree := natDegree_modulus K
    rw [h, natDegree_one] at hdegree
    exact absurd hdegree (by decide)
  refine ((monic_modulus K).irreducible_iff_lt_natDegree_lt hone).2 fun f hmonic hdegree hdvd => ?_
  rw [natDegree_modulus, Finset.mem_Ioc] at hdegree
  have hunit : ¬ IsUnit f := fun h => by
    rw [hmonic.isUnit_iff.1 h, natDegree_one] at hdegree
    exact absurd hdegree.1 (by decide)
  obtain ⟨g, hirreducible, hg⟩ := WfDvdMonoid.exists_irreducible_factor hunit hmonic.ne_zero
  have hfinite : Finite K := Nat.finite_of_card_ne_zero (by rw [hcard]; decide)
  have hpower (n : Nat) : Nat.card K ^ n = 2 ^ n := by rw [hcard]
  have hall : g.natDegree ∣ 64 + 64 := by
    apply hirreducible.natDegree_dvd_of_dvd_X_pow_card_pow_sub_X
    exact (hg.trans hdvd).trans (modulus_dvd K (by rw [hpower, pow_add]))
  have hle : g.natDegree ≤ 64 := (natDegree_le_of_dvd hg hmonic.ne_zero).trans hdegree.2
  -- A divisor of 128 that is at most 64 divides 64.
  have hhalf : g.natDegree ∣ 2 ^ 6 := by
    obtain ⟨k, -, hk⟩ := (Nat.dvd_prime_pow (m := 7) Nat.prime_two).1 hall
    rw [hk] at hle ⊢
    exact pow_dvd_pow 2 ((Nat.pow_le_pow_iff_right (by decide)).1 hle)
  -- So g divides x^(2^64) - x, which has no factor in common with the modulus.
  have hroot : g ∣ X ^ Nat.card K ^ 64 - X :=
    hirreducible.natDegree_dvd_iff_dvd_X_pow_card_pow_sub_X.1 hhalf
  exact hirreducible.not_isUnit
    ((isCoprime_modulus K (hpower 64)).isUnit_of_dvd' (hg.trans hdvd) hroot)

end

/-- Products by an element that is not zero differ where the other factors do. Residues
modulo an irreducible polynomial are a field, and an element is determined by its residue. -/
theorem mul_right_cancel {u v h : Element} (hh : h ≠ 0) (heq : mul u h = mul v h) : u = v := by
  have hirreducible : Fact (Irreducible (modulus (ZMod 2))) :=
    ⟨irreducible_modulus (ZMod 2) (Nat.card_zmod 2)⟩
  have hproduct : value (ZMod 2) u * value (ZMod 2) h = value (ZMod 2) v * value (ZMod 2) h := by
    rw [← value_mul, ← value_mul, heq]
  have hvalue : value (ZMod 2) h ≠ 0 := by
    rw [← value_zero (ZMod 2)]
    exact fun hzero => hh (value_injective (ZMod 2) hzero)
  exact value_injective (ZMod 2) (mul_right_cancel₀ hvalue hproduct)

end Keyring.Gcm
