import Keyring.Proofs.Curve.Ecdsa

/-!
# `Keyring.Proofs.Curve.Collision`: when two signatures are the same

The signatures of two digest numbers e₁ and e₂ under one private scalar d have the halves
x₁ and (e₁ + x₁·d) / k₁, and x₂ and (e₂ + x₂·d) / k₂ modulo `n`, where x₁ and x₂ are the abscissas
of k₁·G and k₂·G. The theorems:

* `abscissa_eq_iff`: the points have the same abscissa exactly if the secret numbers are the same or
  opposite.
* `signature_eq_iff_congruent`: the signatures are the same exactly if their halves agree modulo
  `n`.
* `signature_eq_iff_clash`: so those of different digest numbers are the same in three cases only,
  all of them relations between secret numbers that were derived by hashing.
-/

set_option autoImplicit false

namespace Keyring

open P256 (p n)
open Curve (InRange curve generator)

namespace Curve

open WeierstrassCurve.Affine (Y_eq_of_X_eq)

/-- Numbers in range are opposite exactly if their multiples of the generator are. The sum of
the two is below twice the order, so the order itself is the only multiple it can be. -/
theorem add_eq_order_iff {k l : Nat} (hk : InRange k) (hl : InRange l) :
    k + l = n ↔ k • generator + l • generator = 0 := by
  rw [← add_nsmul, ← addOrderOf_dvd_iff_nsmul_eq_zero, addOrderOf_generator]
  constructor
  · intro hsum
    rw [hsum]
  · intro hdvd
    have hpositive : k + l ≠ 0 := (Nat.add_pos_left hk.1 l).ne'
    have hbound : k + l < 2 * n := by
      rw [two_mul]
      exact Nat.add_lt_add hk.2 hl.2
    exact Nat.eq_of_dvd_of_lt_two_mul hpositive hdvd hbound

/-- Points have the same abscissa exactly if their numbers are the same or opposite, because
on a curve only a point and its opposite share one. The sum of numbers of opposite points is
a multiple of the order between one and twice the order, so it is the order. -/
theorem abscissa_eq_iff {k l x y x' y' : Nat} (hk : InRange k) (hl : InRange l)
    (hpoint : P256.baseMul k = .affine x y) (hpoint' : P256.baseMul l = .affine x' y') :
    x = x' ↔ k = l ∨ k + l = n := by
  obtain ⟨_, _, hns, hx, hy, hsome, hmul⟩ := baseMul_spec hk
  obtain ⟨_, _, hns', hx', hy', hsome', hmul'⟩ := baseMul_spec hl
  obtain ⟨rfl, rfl⟩ := P256.Point.affine.inj (hpoint.symm.trans hmul)
  obtain ⟨rfl, rfl⟩ := P256.Point.affine.inj (hpoint'.symm.trans hmul')
  have hreduced := CharP.natCast_injOn_Iio (ZMod p) p
  rw [add_eq_order_iff hk hl, hsome, hsome']
  constructor
  · rintro rfl
    -- Above one abscissa there are a point and its opposite.
    rcases Y_eq_of_X_eq hns.1 hns'.1 rfl with hsame | hopposite
    · refine .inl (baseMul_injective hk hl ?_)
      rw [hpoint, hpoint', hreduced hy hy' hsame]
    · exact .inr (WeierstrassCurve.Affine.Point.add_of_Y_eq rfl hopposite)
  · rintro (rfl | hsum)
    · exact (P256.Point.affine.inj (hpoint.symm.trans hpoint')).1
    · have hneg := eq_neg_of_add_eq_zero_left hsum
      rw [WeierstrassCurve.Affine.Point.neg_some] at hneg
      exact hreduced hx hx' (WeierstrassCurve.Affine.Point.some.inj hneg).1

end Curve

namespace Ecdsa

/-- Why different digest numbers have the same signature, by the secret numbers that were derived
for them. -/
inductive Clash (scalar e₁ e₂ k₁ k₂ : Nat) : Prop
  /-- The secret numbers are the same. The digest numbers differ, but not modulo the order. -/
  | same : k₁ = k₂ → e₁ ≠ e₂ → e₁ ≡ e₂ [MOD n] → Clash scalar e₁ e₂ k₁ k₂
  /-- The secret numbers are opposite, and so are the numbers that they divide. -/
  | opposite (x y : Nat) : k₁ + k₂ = n → P256.baseMul k₁ = .affine x y →
      (e₁ + x * scalar) + (e₂ + x * scalar) ≡ 0 [MOD n] → Clash scalar e₁ e₂ k₁ k₂
  /-- The abscissas differ, but not modulo the order. -/
  | wrapped (x₁ y₁ x₂ y₂ : Nat) : P256.baseMul k₁ = .affine x₁ y₁ →
      P256.baseMul k₂ = .affine x₂ y₂ → x₁ ≠ x₂ → x₁ ≡ x₂ [MOD n] →
      k₂ * (e₁ + x₁ * scalar) ≡ k₁ * (e₂ + x₂ * scalar) [MOD n] → Clash scalar e₁ e₂ k₁ k₂

/-- Opposite numbers are opposite modulo the order. It turns the statement about the two
secret numbers of a collision into one about the residues that they divide. -/
theorem cast_opposite {k l : Nat} (hsum : k + l = n) : (l : ZMod n) = -k := by
  have hcast := congrArg (Nat.cast : Nat → ZMod n) hsum
  rw [Nat.cast_add, ZMod.natCast_self] at hcast
  exact eq_neg_of_add_eq_zero_right hcast

variable {scalar e₁ e₂ k₁ k₂ x₁ y₁ x₂ y₂ : Nat} {sig₁ sig₂ : Signature}

/-- Signatures are the same exactly if their halves agree modulo the order. The second halves
are compared without their inverses: each side is multiplied by both secret numbers. What is
left is one equation in the secret numbers, from which the three kinds of clash are read off. -/
theorem signature_eq_iff_congruent (hk₁ : InRange k₁) (hk₂ : InRange k₂)
    (h₁ : signWith? scalar e₁ k₁ = some sig₁) (h₂ : signWith? scalar e₂ k₂ = some sig₂)
    (hpoint₁ : P256.baseMul k₁ = .affine x₁ y₁) (hpoint₂ : P256.baseMul k₂ = .affine x₂ y₂) :
    sig₁ = sig₂ ↔ (x₁ : ZMod n) = x₂ ∧
      (k₂ : ZMod n) * (e₁ + x₁ * scalar) = k₁ * (e₂ + x₂ * scalar) := by
  obtain ⟨_, _, hmul₁, hr₁, hs₁, hreduced₁⟩ := signWith?_eq_some_iff.1 h₁
  obtain ⟨_, _, hmul₂, hr₂, hs₂, hreduced₂⟩ := signWith?_eq_some_iff.1 h₂
  obtain ⟨rfl, rfl⟩ := P256.Point.affine.inj (hpoint₁.symm.trans hmul₁)
  obtain ⟨rfl, rfl⟩ := P256.Point.affine.inj (hpoint₂.symm.trans hmul₂)
  have hcast₁ : (x₁ : ZMod n) = sig₁.r := by rw [hr₁, ZMod.natCast_mod]
  have hcast₂ : (x₂ : ZMod n) = sig₂.r := by rw [hr₂, ZMod.natCast_mod]
  have hne₁ := cast_ne_zero_of_inRange hk₁
  have hne₂ := cast_ne_zero_of_inRange hk₂
  have hsplit : sig₁ = sig₂ ↔ sig₁.r = sig₂.r ∧ sig₁.s = sig₂.s := by
    obtain ⟨r₁, s₁⟩ := sig₁
    obtain ⟨r₂, s₂⟩ := sig₂
    simp
  -- Halves are below the order, so they are the same if they are so modulo the order.
  have hinj := CharP.natCast_injOn_Iio (ZMod n) n
  rw [hsplit, ← hinj.eq_iff hreduced₁.r.2 hreduced₂.r.2, ← hinj.eq_iff hreduced₁.s.2 hreduced₂.s.2,
    hcast₁, hcast₂, ← second_mul_secret hk₁ hs₁, ← second_mul_secret hk₂ hs₂]
  refine and_congr_right fun _ => ?_
  -- Both sides are the second halves, times the product of the secret numbers.
  constructor
  · intro hs
    rw [hs]
    ring
  · intro hs
    refine mul_left_cancel₀ (mul_ne_zero hne₁ hne₂) ?_
    linear_combination hs

/-- Halves of different digest numbers that agree modulo the order are a clash. The cases are split
by the abscissas first: only if they are the same, the secret numbers are bound to each other. -/
theorem clash_of_congruent (hdigests : e₁ ≠ e₂) (hk₁ : InRange k₁) (hk₂ : InRange k₂)
    (hpoint₁ : P256.baseMul k₁ = .affine x₁ y₁) (hpoint₂ : P256.baseMul k₂ = .affine x₂ y₂)
    (hx : (x₁ : ZMod n) = x₂)
    (hs : (k₂ : ZMod n) * (e₁ + x₁ * scalar) = k₁ * (e₂ + x₂ * scalar)) :
    Clash scalar e₁ e₂ k₁ k₂ := by
  have hne : (k₁ : ZMod n) ≠ 0 := cast_ne_zero_of_inRange hk₁
  by_cases hsame : x₁ = x₂
  · -- Points of one abscissa have the same secret number or opposite ones.
    rcases (Curve.abscissa_eq_iff hk₁ hk₂ hpoint₁ hpoint₂).1 hsame with hk | hk
    · refine .same hk hdigests ((ZMod.natCast_eq_natCast_iff _ _ _).1 ?_)
      rw [hx, ← hk] at hs
      exact add_right_cancel (mul_left_cancel₀ hne hs)
    · refine .opposite x₁ y₁ hk hpoint₁ ((ZMod.natCast_eq_natCast_iff _ _ _).1 ?_)
      rw [cast_opposite hk, ← hx] at hs
      push_cast
      refine mul_left_cancel₀ hne ?_
      linear_combination -hs
  · -- The abscissas differ but agree modulo the order, which is below the modulus.
    refine .wrapped x₁ y₁ x₂ y₂ hpoint₁ hpoint₂ hsame ((ZMod.natCast_eq_natCast_iff _ _ _).1 hx)
      ((ZMod.natCast_eq_natCast_iff _ _ _).1 ?_)
    push_cast
    exact hs

/-- In a clash the halves agree modulo the order. This is the direction that is checked case
by case; in each the secret numbers are related as their points are. -/
theorem Clash.congruent (h : Clash scalar e₁ e₂ k₁ k₂) (hk₁ : InRange k₁) (hk₂ : InRange k₂)
    (hpoint₁ : P256.baseMul k₁ = .affine x₁ y₁) (hpoint₂ : P256.baseMul k₂ = .affine x₂ y₂) :
    (x₁ : ZMod n) = x₂ ∧ (k₂ : ZMod n) * (e₁ + x₁ * scalar) = k₁ * (e₂ + x₂ * scalar) := by
  have habscissa := Curve.abscissa_eq_iff hk₁ hk₂ hpoint₁ hpoint₂
  cases h with
  | same hk _ he =>
      rw [habscissa.2 (.inl hk), hk, (ZMod.natCast_eq_natCast_iff _ _ _).2 he]
      exact ⟨rfl, rfl⟩
  | opposite x y hk hpoint hsum =>
      obtain ⟨rfl, rfl⟩ := P256.Point.affine.inj (hpoint₁.symm.trans hpoint)
      have hzero := (ZMod.natCast_eq_natCast_iff _ _ _).2 hsum
      push_cast at hzero
      rw [← habscissa.2 (.inr hk), cast_opposite hk]
      refine ⟨rfl, ?_⟩
      linear_combination (-(k₁ : ZMod n)) * hzero
  | wrapped _ _ _ _ hpoint hpoint' _ hx hs =>
      -- The clash names the points, and they are those of the secret numbers.
      obtain ⟨rfl, rfl⟩ := P256.Point.affine.inj (hpoint₁.symm.trans hpoint)
      obtain ⟨rfl, rfl⟩ := P256.Point.affine.inj (hpoint₂.symm.trans hpoint')
      have hcross := (ZMod.natCast_eq_natCast_iff _ _ _).2 hs
      push_cast at hcross
      exact ⟨(ZMod.natCast_eq_natCast_iff _ _ _).2 hx, hcross⟩

/-- The signatures of different digest numbers under one private scalar are the same in three
cases only. Agreeing first halves bind the abscissas, and with them the secret numbers, which
leaves one relation between the two digests in each case. -/
theorem signature_eq_iff_clash (hdigests : e₁ ≠ e₂) (hk₁ : InRange k₁) (hk₂ : InRange k₂)
    (h₁ : signWith? scalar e₁ k₁ = some sig₁) (h₂ : signWith? scalar e₂ k₂ = some sig₂) :
    sig₁ = sig₂ ↔ Clash scalar e₁ e₂ k₁ k₂ := by
  obtain ⟨x₁, y₁, hpoint₁, -⟩ := signWith?_eq_some_iff.1 h₁
  obtain ⟨x₂, y₂, hpoint₂, -⟩ := signWith?_eq_some_iff.1 h₂
  rw [signature_eq_iff_congruent hk₁ hk₂ h₁ h₂ hpoint₁ hpoint₂]
  constructor
  · rintro ⟨hx, hs⟩
    exact clash_of_congruent hdigests hk₁ hk₂ hpoint₁ hpoint₂ hx hs
  · intro hclash
    exact hclash.congruent hk₁ hk₂ hpoint₁ hpoint₂

end Ecdsa
end Keyring
