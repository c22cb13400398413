import Mathlib.AlgebraicGeometry.EllipticCurve.Affine.Point
import Mathlib.Tactic.FieldSimp
import Mathlib.Tactic.LinearCombination

/-!
# `Keyring.Proofs.Curve.Jacobian`: sums in Jacobian coordinates

Over any field, on a curve y² = x³ − 3x + b, the coordinates (x : y : z) stand
for the point (x / z², y / z³). The theorems say that the usual formulas for
twice a point and for the sum of two points keep what the coordinates stand
for, with the sum of the group of the curve:

* `Stands.double`, `Stands.add`: the formulas where they apply.
* `Stands.double_eq_zero`, `Stands.add_eq_zero`: the cases where the sum is the
  point at infinity.
-/

set_option autoImplicit false

namespace Keyring.Curve

open WeierstrassCurve.Affine

variable {F : Type} [Field F]

/-- The equation of the curve is y² = x³ − 3x + b. -/
structure IsShort (W : WeierstrassCurve.Affine F) : Prop where
  a₁ : W.a₁ = 0
  a₂ : W.a₂ = 0
  a₃ : W.a₃ = 0
  a₄ : W.a₄ = -3

/-- The coordinates (x : y : z) stand for a point. -/
def Stands (W : WeierstrassCurve.Affine F) (x y z : F) (P : W.Point) : Prop :=
  (z = 0 ∧ P = 0) ∨
    (z ≠ 0 ∧ ∃ (px py : F) (h : W.Nonsingular px py),
      P = .some px py h ∧ x = px * z ^ 2 ∧ y = py * z ^ 3)

namespace Stands

variable {W : WeierstrassCurve.Affine F} {x y z x' y' z' : F} {P Q : W.Point}

/-- Where z is zero the point is at infinity. Only the first way to stand for a point allows
it. -/
theorem eq_zero (h : Stands W x y z P) (hz : z = 0) : P = 0 := by
  rcases h with ⟨-, hP⟩ | ⟨hne, -⟩
  · exact hP
  · exact absurd hz hne

/-- Where z is not zero the point is a finite one, and its coordinates are those of the
triple with the powers of z divided out. -/
theorem exists_some (h : Stands W x y z P) (hz : z ≠ 0) :
    ∃ (px py : F) (h : W.Nonsingular px py),
      P = .some px py h ∧ x = px * z ^ 2 ∧ y = py * z ^ 3 := by
  rcases h with ⟨hzero, -⟩ | ⟨-, hsome⟩
  · exact absurd hzero hz
  · exact hsome

/-- Values are the same if they are the same when scaled, by factors that are not zero. -/
theorem eq_of_scaled {a b c d : F} (hc : c ≠ 0) (hd : d ≠ 0) (h : b * d * c = a * c * d) :
    a = b := by
  have hzero : (a - b) * (c * d) = 0 := by linear_combination -h
  exact sub_eq_zero.1 ((mul_eq_zero.1 hzero).resolve_right (mul_ne_zero hc hd))

/-- Two finite points that are the same: the program compares their coordinates after scaling
each by the powers of the other's z. -/
theorem eq_of_eq (h : Stands W x y z P) (h' : Stands W x' y' z' Q) (hz : z ≠ 0) (hz' : z' ≠ 0)
    (hx : x' * z ^ 2 = x * z' ^ 2) (hy : y' * z ^ 3 = y * z' ^ 3) : P = Q := by
  obtain ⟨px, py, hns, rfl, hpx, hpy⟩ := h.exists_some hz
  obtain ⟨qx, qy, hns', rfl, hqx, hqy⟩ := h'.exists_some hz'
  rw [hpx, hqx] at hx
  rw [hpy, hqy] at hy
  obtain rfl := eq_of_scaled (pow_ne_zero 2 hz) (pow_ne_zero 2 hz') hx
  obtain rfl := eq_of_scaled (pow_ne_zero 3 hz) (pow_ne_zero 3 hz') hy
  rfl

/-- On a curve in short form the opposite of a point has the opposite ordinate. -/
theorem negY_eq (hW : IsShort W) (px py : F) : W.negY px py = -py := by
  rw [negY, hW.a₁, hW.a₃, zero_mul, sub_zero, sub_zero]

variable [DecidableEq F]

/-- Two finite points of the same abscissa that are not the same: their sum is at infinity,
because points of one abscissa are the same or opposite. Their chord is vertical, and the
program answers infinity without using the formulas. -/
theorem add_eq_zero (h : Stands W x y z P) (h' : Stands W x' y' z' Q) (hz : z ≠ 0)
    (hz' : z' ≠ 0) (hx : x' * z ^ 2 = x * z' ^ 2) (hy : y' * z ^ 3 ≠ y * z' ^ 3) : P + Q = 0 := by
  obtain ⟨px, py, hns, rfl, hpx, hpy⟩ := h.exists_some hz
  obtain ⟨qx, qy, hns', rfl, hqx, hqy⟩ := h'.exists_some hz'
  rw [hpx, hqx] at hx
  obtain rfl := eq_of_scaled (pow_ne_zero 2 hz) (pow_ne_zero 2 hz') hx
  -- Points of one abscissa are the same or opposite.
  refine Point.add_of_Y_eq rfl ((Y_eq_of_X_eq hns.1 hns'.1 rfl).resolve_left ?_)
  intro hyeq
  refine hy ?_
  rw [hpy, hqy, hyeq]
  ring

/-- A finite point of order two: its ordinate is zero, so it is its own opposite and twice it
is at infinity. On the curve of the program there is no such point, but the program tests for
it, and the lemma covers the test. -/
theorem double_eq_zero (hW : IsShort W) (h : Stands W x y z P) (hy : y = 0) : P + P = 0 := by
  rcases h with ⟨-, rfl⟩ | ⟨hz, px, py, hns, rfl, -, hpy⟩
  · exact add_zero _
  · have hpy0 : py = 0 := by
      rw [hy] at hpy
      exact (mul_eq_zero.1 hpy.symm).resolve_right (pow_ne_zero 3 hz)
    refine Point.add_self_of_Y_eq ?_
    rw [negY_eq hW, hpy0, neg_zero]

/-- Twice a finite point that is not of order two. The formulas of the program have no
division; with the powers of z divided out they are the tangent formulas. -/
theorem double (hW : IsShort W) (htwo : (2 : F) ≠ 0) (h : Stands W x y z P) (hz : z ≠ 0)
    (hy : y ≠ 0) {s m x₃ : F} (hs : s = 4 * x * y ^ 2) (hm : m = 3 * ((x - z ^ 2) * (x + z ^ 2)))
    (hx₃ : x₃ = m ^ 2 - 2 * s) :
    Stands W x₃ (m * (s - x₃) - 8 * y ^ 4) (2 * y * z) (P + P) := by
  obtain ⟨px, py, hns, rfl, hpx, hpy⟩ := h.exists_some hz
  -- The tangent is not vertical.
  have hpy0 : 2 * py ≠ 0 := by
    refine mul_ne_zero htwo ?_
    rintro rfl
    exact hy (by rw [hpy, zero_mul])
  have hneg : py ≠ W.negY px py := by
    rw [negY_eq hW]
    intro heq
    exact hpy0 (by linear_combination heq)
  have hslope : W.slope px px py py * (2 * py) = 3 * px ^ 2 - 3 := by
    rw [slope_of_Y_ne rfl hneg, negY_eq hW, hW.a₁, hW.a₂, hW.a₄, sub_neg_eq_add, ← two_mul,
      div_mul_cancel₀ _ hpy0]
    ring
  -- The numerator of the slope is the slope times the new z.
  have hm' : m = W.slope px px py py * (2 * y * z) := by
    rw [hm, hpx, hpy]
    linear_combination (-z ^ 4) * hslope
  refine .inr ⟨mul_ne_zero (mul_ne_zero htwo hy) hz, _, _, _, Point.add_self_of_Y_ne hneg, ?_, ?_⟩
  · rw [addX, hW.a₁, hW.a₂, hx₃, hs, hm', hpx, hpy]
    ring
  · rw [addY, negAddY, negY_eq hW, addX, hW.a₁, hW.a₂, hx₃, hs, hm', hpx, hpy]
    ring

/-- Two finite points of different abscissas. With the powers of both z divided out the
formulas of the program are those of the chord. The names of the intermediate values are
those of the program, so that its own terms match them. -/
theorem add (hW : IsShort W) (h : Stands W x y z P) (h' : Stands W x' y' z' Q) (hz : z ≠ 0)
    (hz' : z' ≠ 0) {u s d r x₃ : F} (hu : u = x * z' ^ 2) (hs : s = y * z' ^ 3)
    (hd : d = x' * z ^ 2 - u) (hr : r = y' * z ^ 3 - s) (hd0 : d ≠ 0)
    (hx₃ : x₃ = r ^ 2 - d ^ 3 - 2 * (u * d ^ 2)) :
    Stands W x₃ (r * (u * d ^ 2 - x₃) - s * d ^ 3) (z * z' * d) (P + Q) := by
  obtain ⟨px, py, hns, rfl, hpx, hpy⟩ := h.exists_some hz
  obtain ⟨qx, qy, hns', rfl, hqx, hqy⟩ := h'.exists_some hz'
  -- The chord is not vertical.
  have hdiff : px - qx ≠ 0 := by
    intro heq
    refine hd0 ?_
    rw [hd, hu, hpx, hqx, sub_eq_zero.1 heq]
    ring
  refine .inr ⟨mul_ne_zero (mul_ne_zero hz hz') hd0, _, _, _,
    Point.add_of_X_ne (sub_ne_zero.1 hdiff), ?_, ?_⟩
  · rw [addX, slope_of_X_ne (sub_ne_zero.1 hdiff), hW.a₁, hW.a₂, hx₃, hr, hd, hs, hu, hpx, hpy,
      hqx, hqy]
    field_simp
    ring
  · rw [addY, negAddY, addX, slope_of_X_ne (sub_ne_zero.1 hdiff), negY_eq hW, hW.a₁, hW.a₂, hx₃,
      hr, hd, hs, hu, hpx, hpy, hqx, hqy]
    field_simp
    ring

end Stands
end Keyring.Curve
