import Keyring.Proofs.Curve.Jacobian
import Keyring.Proofs.Curve.Prime

/-!
# `Keyring.Proofs.Curve.Group`: multiples of the generator

The reduced numbers that the library computes with stand for points of the
curve over `ZMod p`, and its sums for sums in the group of the curve. The
theorems:

* `represents_double`, `represents_add`, `represents_mul`: twice a point, the
  sum of two points, the multiple of a point.
* `addOrderOf_generator`: the generator has the prime order `n`.
* `baseMul_spec`: a multiple of the generator by a number in 1 … n − 1 is a
  finite point, with coordinates that satisfy the equation of the curve.
* `toPoint_eq_baseMul`: whatever else stands for the multiple is written in the
  same coordinates.
* `baseMul_injective`: different such numbers have different multiples.
-/

set_option autoImplicit false

namespace Keyring.Curve

open P256 (p n)
open WeierstrassCurve.Affine (equation_iff equation_iff_nonsingular_of_Δ_ne_zero)

instance : Fact p.Prime := ⟨prime_p⟩

/-- The curve over the field of its coordinates. -/
def curve : WeierstrassCurve.Affine (ZMod p) where
  a₁ := 0
  a₂ := 0
  a₃ := 0
  a₄ := -3
  a₆ := P256.b

/-- The curve is in short form, by its definition: three of its five coefficients are zero
and the fourth is -3. -/
theorem isShort_curve : IsShort curve := ⟨rfl, rfl, rfl, rfl⟩

/-! ### Reduced numbers -/

/-- A reduced number is zero exactly if it is zero in `ZMod`. The program compares numbers,
and the proofs compare residues. -/
theorem cast_eq_zero_iff {k : Nat} (h : k < p) : (k : ZMod p) = 0 ↔ k = 0 := by
  rw [ZMod.natCast_eq_zero_iff]
  constructor
  · intro hdvd
    exact Nat.eq_zero_of_dvd_of_lt hdvd h
  · rintro rfl
    exact Nat.dvd_zero p

/-- Two is not zero modulo `p`, so the tangent formula may divide by it. -/
theorem two_ne_zero_of_p : (2 : ZMod p) ≠ 0 := by
  have htwo := (not_congr (cast_eq_zero_iff (show 2 < p by decide))).2 (by decide)
  rwa [Nat.cast_ofNat] at htwo

/-- A number that is reduced modulo `p` is below it. The prime is a closed number, so it is
positive by computation. -/
theorem mod_lt_p (k : Nat) : k % p < p := Nat.mod_lt k (by decide)

/-- A difference that the program computes is reduced. The last step of the difference is the
reduction. -/
theorem sub_lt_p (a b : Nat) : Modular.sub p a b < p := mod_lt_p _

/-- A difference with a reduced number is the difference of residues. The program reduces the
second number before it adds the modulus, so that the difference of natural numbers does not
stop at zero. -/
theorem cast_sub_mod (a b : Nat) :
    ((Modular.sub p a (b % p) : Nat) : ZMod p) = (a : ZMod p) - b := by
  rw [Modular.cast_sub (mod_lt_p b).le, ZMod.natCast_mod]

/-- A difference with a difference is the difference of residues, because the inner one is
reduced. -/
theorem cast_sub_sub (a b c : Nat) :
    ((Modular.sub p a (Modular.sub p b c) : Nat) : ZMod p)
      = (a : ZMod p) - (Modular.sub p b c : Nat) :=
  Modular.cast_sub (sub_lt_p b c).le a

/-! ### Points -/

/-- Reduced coordinates stand for a point. -/
structure Represents (u : P256.Jacobian) (P : curve.Point) : Prop where
  x_lt : u.x < p
  y_lt : u.y < p
  z_lt : u.z < p
  stands : Stands curve (u.x : ZMod p) u.y u.z P

/-- A third coordinate that is not zero as a number is not zero as a residue. -/
theorem Represents.z_ne_zero {u : P256.Jacobian} {P : curve.Point} (h : Represents u P)
    (hz : u.z ≠ 0) : (u.z : ZMod p) ≠ 0 :=
  (not_congr (cast_eq_zero_iff h.z_lt)).2 hz

/-- The point at infinity is the triple that the loop over the digits of a scalar begins
with. -/
theorem represents_infinity : Represents .infinity 0 where
  x_lt := by decide
  y_lt := by decide
  z_lt := by decide
  stands := .inl ⟨Nat.cast_zero, rfl⟩

/-- A finite point by its plain coordinates: with third coordinate one nothing is scaled. -/
theorem represents_affine {x y : Nat} (hx : x < p) (hy : y < p)
    (hns : curve.Nonsingular (x : ZMod p) y) : Represents ⟨x, y, 1⟩ (.some _ _ hns) where
  x_lt := hx
  y_lt := hy
  z_lt := show 1 < p by decide
  stands := by
    refine .inr ⟨?_, _, _, hns, rfl, ?_, ?_⟩
    · rw [Nat.cast_one]
      exact one_ne_zero
    · rw [Nat.cast_one, one_pow, mul_one]
    · rw [Nat.cast_one, one_pow, mul_one]

/-- Twice a point. The program answers infinity in two cases, and in both the point is its
own opposite; otherwise its formulas are those of the tangent. -/
theorem represents_double {u : P256.Jacobian} {P : curve.Point} (h : Represents u P) :
    Represents u.double (P + P) := by
  unfold P256.Jacobian.double
  split
  · rename_i hzero
    have hsum : P + P = 0 := by
      -- Twice a point at infinity, or twice one that is its own opposite.
      rcases hzero with hz | hy
      · rw [h.stands.eq_zero ((cast_eq_zero_iff h.z_lt).2 hz), add_zero]
      · exact h.stands.double_eq_zero isShort_curve ((cast_eq_zero_iff h.y_lt).2 hy)
    rw [hsum]
    exact represents_infinity
  · rename_i hne
    obtain ⟨hz, hy⟩ := not_or.1 hne
    have hy' : (u.y : ZMod p) ≠ 0 := (not_congr (cast_eq_zero_iff h.y_lt)).2 hy
    have hdouble := h.stands.double isShort_curve two_ne_zero_of_p (h.z_ne_zero hz) hy' rfl rfl rfl
    refine ⟨sub_lt_p _ _, sub_lt_p _ _, mod_lt_p _, ?_⟩
    -- What the program computes with natural numbers are the same residues.
    simp only [cast_sub_mod, cast_sub_sub, ZMod.natCast_mod, Nat.cast_mul, Nat.cast_add,
      Nat.cast_ofNat]
    convert hdouble using 1 <;> ring

/-- The sum of two points. The five branches of the program are the cases of the group law:
one of the two at infinity, the same point, opposite points, and the chord. -/
theorem represents_add {u v : P256.Jacobian} {P Q : curve.Point} (hu : Represents u P)
    (hv : Represents v Q) : Represents (u.add v) (P + Q) := by
  unfold P256.Jacobian.add
  by_cases huz : u.z = 0
  · rw [if_pos huz, hu.stands.eq_zero ((cast_eq_zero_iff hu.z_lt).2 huz), zero_add]
    exact hv
  by_cases hvz : v.z = 0
  · rw [if_neg huz, if_pos hvz, hv.stands.eq_zero ((cast_eq_zero_iff hv.z_lt).2 hvz), add_zero]
    exact hu
  rw [if_neg huz, if_neg hvz]
  have hz := hu.z_ne_zero huz
  have hz' := hv.z_ne_zero hvz
  dsimp only
  -- The differences of the abscissas and of the ordinates, over a common denominator.
  have hd : ((Modular.sub p (v.x * (u.z * u.z % p) % p) (u.x * (v.z * v.z % p) % p) : Nat) : ZMod p)
      = v.x * (u.z : ZMod p) ^ 2 - u.x * (v.z : ZMod p) ^ 2 := by
    simp only [cast_sub_mod, ZMod.natCast_mod, Nat.cast_mul]
    ring
  have hr : ((Modular.sub p (v.y * (u.z * u.z % p * u.z % p) % p)
        (u.y * (v.z * v.z % p * v.z % p) % p) : Nat) : ZMod p)
      = v.y * (u.z : ZMod p) ^ 3 - u.y * (v.z : ZMod p) ^ 3 := by
    simp only [cast_sub_mod, ZMod.natCast_mod, Nat.cast_mul]
    ring
  -- Equal abscissas are those of the same point or of opposite ones.
  split
  · rename_i hd0
    rw [hd0, Nat.cast_zero] at hd
    have hx := sub_eq_zero.1 hd.symm
    split
    · rename_i hr0
      rw [hr0, Nat.cast_zero] at hr
      have hy := sub_eq_zero.1 hr.symm
      rw [← hu.stands.eq_of_eq hv.stands hz hz' hx hy]
      exact represents_double hu
    · rename_i hr0
      have hy := sub_ne_zero.1 (hr ▸ (not_congr (cast_eq_zero_iff (sub_lt_p _ _))).2 hr0)
      rw [hu.stands.add_eq_zero hv.stands hz hz' hx hy]
      exact represents_infinity
  · rename_i hd0
    have hd0' := (not_congr (cast_eq_zero_iff (sub_lt_p _ _))).2 hd0
    have hadd := hu.stands.add isShort_curve hv.stands hz hz' rfl rfl hd hr hd0' rfl
    refine ⟨sub_lt_p _ _, sub_lt_p _ _, mod_lt_p _, ?_⟩
    rw [hd, hr] at hadd
    simp only [cast_sub_mod, cast_sub_sub, ZMod.natCast_mod, Nat.cast_mul, Nat.cast_ofNat]
    convert hadd using 1 <;> ring

/-- A multiple of a point. The loop doubles for each binary digit and adds for each that is
set, and both keep the relation to the group. The bound on the number is the number of binary
digits that the loop goes through. -/
theorem represents_mul {u : P256.Jacobian} {P : curve.Point} (h : Represents u P) {k : Nat}
    (hk : k < 2 ^ 256) : Represents (P256.Jacobian.mul k u) (k • P) := by
  refine Modular.foldl_bits_of_lt (R := fun acc k => Represents acc (k • P)) ?_ ?_ hk ?_
  · intro acc k hacc
    rw [two_mul, add_nsmul]
    exact represents_double hacc
  · intro acc k hacc
    rw [add_nsmul, one_nsmul, two_mul, add_nsmul]
    exact represents_add (represents_double hacc) h
  · rw [zero_nsmul]
    exact represents_infinity

/-- The plain coordinates of a point: of the point at infinity there are none, of another one
they are reduced and its own. -/
theorem toPoint_spec {u : P256.Jacobian} {P : curve.Point} (h : Represents u P) :
    (P = 0 ∧ u.toPoint = .infinity) ∨
      ∃ (x y : Nat) (hns : curve.Nonsingular (x : ZMod p) y),
        x < p ∧ y < p ∧ P = .some _ _ hns ∧ u.toPoint = .affine x y := by
  unfold P256.Jacobian.toPoint
  by_cases hz : u.z = 0
  · rw [if_pos hz]
    exact .inl ⟨h.stands.eq_zero ((cast_eq_zero_iff h.z_lt).2 hz), rfl⟩
  · rw [if_neg hz]
    have hz' := h.z_ne_zero hz
    obtain ⟨px, py, hns, rfl, hpx, hpy⟩ := h.stands.exists_some hz'
    -- The coordinates are divided by the powers of z that they were scaled with.
    have hinv : ((Modular.inv p u.z : Nat) : ZMod p) = (u.z : ZMod p)⁻¹ :=
      Modular.cast_inv (by decide) (by decide) u.z
    have hx : ((u.x * (Modular.inv p u.z * Modular.inv p u.z % p) % p : Nat) : ZMod p) = px := by
      simp only [ZMod.natCast_mod, Nat.cast_mul, hinv, hpx]
      field_simp
    have hy : ((u.y * (Modular.inv p u.z * Modular.inv p u.z % p * Modular.inv p u.z % p) % p :
        Nat) : ZMod p) = py := by
      simp only [ZMod.natCast_mod, Nat.cast_mul, hinv, hpy]
      field_simp
    subst hx hy
    exact .inr ⟨_, _, hns, mod_lt_p _, mod_lt_p _, rfl, rfl⟩

/-! ### The equation of the curve -/

/-- Reduced numbers pass the check of the equation exactly if they satisfy it. The check adds
`p - 3` where the curve has `-3`. -/
theorem onCurve_iff (x y : Nat) :
    P256.onCurve x y = true ↔ x < p ∧ y < p ∧ curve.Equation (x : ZMod p) y := by
  have hcoefficient : ((p - 3 : Nat) : ZMod p) = -3 := by
    rw [Nat.cast_sub (by decide), ZMod.natCast_self, zero_sub, Nat.cast_ofNat]
  have hequation : y * y % p = (x * x * x + (p - 3) * x + P256.b) % p ↔
      curve.Equation (x : ZMod p) y := by
    rw [← ZMod.natCast_eq_natCast_iff', equation_iff]
    simp only [Nat.cast_add, Nat.cast_mul, hcoefficient, curve, zero_mul, add_zero]
    ring_nf
  rw [P256.onCurve, Bool.and_eq_true, Bool.and_eq_true, decide_eq_true_eq, decide_eq_true_eq,
    beq_iff_eq, hequation, and_assoc]

/-- The curve has no singular point: its discriminant is computed as a number and is not
divisible by `p`. -/
theorem discriminant_ne_zero : curve.Δ ≠ 0 := by
  -- The discriminant is written as a reduced number, so that it can be computed.
  have hvalue : curve.Δ = ((16 * 27 * (4 * p - (P256.b * P256.b - 4) % p) % p : Nat) : ZMod p) := by
    rw [ZMod.natCast_mod, Nat.cast_mul, Nat.cast_sub (by decide), ZMod.natCast_mod,
      Nat.cast_sub (by decide)]
    simp only [WeierstrassCurve.Δ, WeierstrassCurve.b₂, WeierstrassCurve.b₄, WeierstrassCurve.b₆,
      WeierstrassCurve.b₈, curve, Nat.cast_mul, ZMod.natCast_self, Nat.cast_ofNat]
    ring
  rw [hvalue, Ne, cast_eq_zero_iff (mod_lt_p _)]
  decide +kernel

/-- A solution of the equation is a point of the group, because no point is singular. -/
theorem nonsingular_of_equation {x y : ZMod p} (h : curve.Equation x y) :
    curve.Nonsingular x y :=
  (equation_iff_nonsingular_of_Δ_ne_zero discriminant_ne_zero).1 h

/-! ### The generator -/

/-- The generator satisfies the equation, by computation. The kernel multiplies the two
coordinates out once. -/
theorem equation_base : curve.Equation (P256.base.x : ZMod p) P256.base.y :=
  ((onCurve_iff P256.base.x P256.base.y).1 (by decide +kernel)).2.2

/-- The generator as a point of the group. -/
def generator : curve.Point := .some _ _ (nonsingular_of_equation equation_base)

/-- The generator of the program represents that of the group. Its coordinates are reduced
already, so they are those of an affine point. -/
theorem represents_base : Represents P256.base generator :=
  represents_affine (by decide) (by decide) _

/-- The generator has the order `n`: its multiple by `n` is computed to be at infinity, and
`n` is prime. The kernel computes that one multiple; that no smaller number gives infinity
follows from the order being prime. -/
theorem addOrderOf_generator : addOrderOf generator = n := by
  have : Fact n.Prime := ⟨prime_n⟩
  refine addOrderOf_eq_prime ?_ (WeierstrassCurve.Affine.Point.some_ne_zero _)
  -- By a prime order only the multiple by it has to be at infinity.
  have hmul := represents_mul represents_base (show n < 2 ^ 256 by decide)
  refine hmul.stands.eq_zero ((cast_eq_zero_iff hmul.z_lt).2 ?_)
  decide +kernel

/-- A number in 1 … n − 1. -/
def InRange (k : Nat) : Prop := 0 < k ∧ k < n

/-- A number in range has at most 256 binary digits, so the loop over them reads all of it. -/
theorem InRange.lt_width {k : Nat} (h : InRange k) : k < 2 ^ 256 :=
  Nat.lt_trans h.2 (by decide)

/-- Coordinates that stand for a multiple of the generator are written as that multiple is,
however they were computed. Triples of one point may differ by a factor. Checking a signature
adds two multiples in its own way, and its result is compared with one multiple by this
lemma. -/
theorem toPoint_eq_baseMul {u : P256.Jacobian} {k : Nat} (hk : InRange k)
    (h : Represents u (k • generator)) : u.toPoint = P256.baseMul k := by
  have hbase := toPoint_spec (represents_mul represents_base hk.lt_width)
  rcases toPoint_spec h with ⟨hzero, hpoint⟩ | ⟨x, y, hns, hx, hy, hsome, hpoint⟩
  · rcases hbase with ⟨-, hmul⟩ | ⟨x', y', hns', -, -, hsome', -⟩
    · exact hpoint.trans hmul.symm
    · exact absurd (hsome'.symm.trans hzero) (WeierstrassCurve.Affine.Point.some_ne_zero _)
  · rcases hbase with ⟨hzero, -⟩ | ⟨x', y', hns', hx', hy', hsome', hmul⟩
    · exact absurd (hsome.symm.trans hzero) (WeierstrassCurve.Affine.Point.some_ne_zero _)
    -- Reduced numbers are the same if they are the same in `ZMod`.
    · have hreduced := CharP.natCast_injOn_Iio (ZMod p) p
      obtain ⟨hxx, hyy⟩ := WeierstrassCurve.Affine.Point.some.inj (hsome.symm.trans hsome')
      rw [hpoint, P256.baseMul, hmul, hreduced hx hx' hxx, hreduced hy hy' hyy]

/-- A multiple of the generator by a number in range is a finite point of the curve, for
otherwise the order of the generator would divide the number. Signing and deriving a public
key need no case for the point at infinity because of it. -/
theorem baseMul_spec {k : Nat} (h : InRange k) :
    ∃ (x y : Nat) (hns : curve.Nonsingular (x : ZMod p) y),
      x < p ∧ y < p ∧ k • generator = .some _ _ hns ∧ P256.baseMul k = .affine x y := by
  rcases toPoint_spec (represents_mul represents_base h.lt_width) with ⟨hzero, -⟩ | hfinite
  · -- The order of the generator would divide the number.
    have hdvd := addOrderOf_dvd_of_nsmul_eq_zero hzero
    rw [addOrderOf_generator] at hdvd
    exact absurd (Nat.eq_zero_of_dvd_of_lt hdvd h.2) (Nat.pos_iff_ne_zero.1 h.1)
  · exact hfinite

/-- Different numbers in range have different multiples of the generator. So a public key
belongs to one private key. Two private keys of one public key would differ by a multiple of
the order, and both are below it. -/
theorem baseMul_injective {k l : Nat} (hk : InRange k) (hl : InRange l)
    (h : P256.baseMul k = P256.baseMul l) : k = l := by
  obtain ⟨x, y, hns, -, -, hpoint, hmul⟩ := baseMul_spec hk
  obtain ⟨x', y', hns', -, -, hpoint', hmul'⟩ := baseMul_spec hl
  rw [hmul, hmul'] at h
  obtain ⟨rfl, rfl⟩ := P256.Point.affine.inj h
  -- Equal multiples agree modulo the order, and both numbers are below it.
  have hsame : k • generator = l • generator := by rw [hpoint, hpoint']
  rw [nsmul_eq_nsmul_iff_modEq, addOrderOf_generator] at hsame
  exact hsame.eq_of_lt_of_lt hk.2 hl.2

end Keyring.Curve
