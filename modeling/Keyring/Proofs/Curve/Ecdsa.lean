import Keyring.Curve.Ecdsa
import Keyring.Proofs.Bytes.Basic
import Keyring.Proofs.Curve.Group

/-!
# `Keyring.Proofs.Curve.Ecdsa`: what was signed is verified

The halves of a signature are r = x(k·G) and s = (e + r·d) / k modulo `n`, for the
private scalar d, the digest number e and the secret number k. To verify it, the
multiple of G by e / s and that of d·G by r / s are added; modulo `n` the sum of
the numbers is (e + r·d) / s = k, so the sum is k·G again. The theorems:

* `Nonce.derive_inRange`: a secret number is in 1 … n − 1.
* `signWith?_eq_some_iff`: when there is a signature, and which.
* `verify_of_signWith?`, `sign?_spec`: a signature is verified under the point of
  its scalar.
* `Signature.ofBytes?_bytes`: a signature is read back from its 64 bytes.
-/

set_option autoImplicit false

namespace Keyring

open P256 (p n)
open Curve (InRange curve generator)

/-! ### Secret numbers -/

/-- A number that the search finds is in range, because the search tests that before it
stops. Induction on the tries. -/
theorem Nonce.search_inRange {tries : Nat} {g : Generator} {k : Nat}
    (h : search tries g = some k) : InRange k := by
  induction tries generalizing g with
  | zero => exact absurd h nofun
  | succ tries ih =>
      rw [search] at h
      split at h
      · rename_i hrange
        rw [← Option.some.inj h]
        exact hrange
      · exact ih h

/-- A derived secret number is in range, wherever the search ended. The search hands out
nothing that it did not test. So a secret number has an inverse, and its multiple of the
generator is a finite point. -/
theorem Nonce.derive_inRange {scalar digest k : Nat} (h : derive scalar digest = some k) :
    InRange k :=
  search_inRange h

/-- The secret number for a scalar and a digest number makes both halves of the signature other
than zero. The number is derived by hashing, so that this is not proved but assumed. -/
def Nonce.Suits (scalar digest : Nat) : Prop :=
  ∃ k x y, derive scalar digest = some k ∧ P256.baseMul k = .affine x y ∧ x % n ≠ 0 ∧
    Modular.inv n k * (digest % n + x % n * scalar) % n ≠ 0

namespace Ecdsa

/-! ### Halves -/

/-- Both halves of a signature are in 1 … n − 1. -/
structure Signature.Reduced (sig : Signature) : Prop where
  r : InRange sig.r
  s : InRange sig.s

/-- A number that is reduced modulo the order is below it. The order is a closed number, so
it is positive by computation. -/
theorem mod_lt_n (k : Nat) : k % n < n := Nat.mod_lt k (by decide)

/-- There is a signature if its halves are not zero, and these are its halves. The equations
are all that is used of a signature from here on. -/
theorem signWith?_eq_some_iff {scalar digest k : Nat} {sig : Signature} :
    signWith? scalar digest k = some sig ↔
      ∃ x y, P256.baseMul k = .affine x y ∧ sig.r = x % n ∧
        sig.s = Modular.inv n k * (digest % n + sig.r * scalar) % n ∧ sig.Reduced := by
  constructor
  · intro h
    unfold signWith? at h
    split at h
    · exact absurd h nofun
    · rename_i x y hpoint
      dsimp only at h
      split at h
      · exact absurd h nofun
      · rename_i hzero
        -- The program tests the halves for zero after it has reduced them.
        obtain ⟨hr, hs⟩ := not_or.1 hzero
        obtain rfl := Option.some.inj h
        exact ⟨x, y, hpoint, rfl, rfl, ⟨Nat.pos_of_ne_zero hr, mod_lt_n _⟩,
          ⟨Nat.pos_of_ne_zero hs, mod_lt_n _⟩⟩
  · rintro ⟨x, y, hpoint, hr, hs, hreduced⟩
    -- Halves that are reduced are not zero, so neither test fails.
    have hr0 := hreduced.r.1.ne'
    have hs0 := hreduced.s.1.ne'
    rw [hs] at hs0
    rw [hr] at hr0 hs0
    rw [signWith?, hpoint]
    simp only
    rw [if_neg (not_or.2 ⟨hr0, hs0⟩), ← hr, ← hs]

/-! ### Verification -/

section

instance : Fact n.Prime := ⟨Curve.prime_n⟩

/-- A number in range is not zero modulo the order, so it has an inverse. -/
theorem cast_ne_zero_of_inRange {k : Nat} (h : InRange k) : (k : ZMod n) ≠ 0 := by
  rw [Ne, ZMod.natCast_eq_zero_iff]
  exact fun hdvd => h.1.ne' (Nat.eq_zero_of_dvd_of_lt hdvd h.2)

/-- The inverse that is computed by a power is the inverse in the field. -/
theorem cast_inv (k : Nat) : ((Modular.inv n k : Nat) : ZMod n) = (k : ZMod n)⁻¹ :=
  Modular.cast_inv (by decide) (by decide) k

/-- Multiples of the generator by numbers that are the same modulo the order are the same,
since that is the order of the generator. -/
theorem nsmul_generator_eq {k l : Nat} (h : (k : ZMod n) = l) : k • generator = l • generator := by
  rw [nsmul_eq_nsmul_iff_modEq, Curve.addOrderOf_generator]
  exact (ZMod.natCast_eq_natCast_iff k l n).1 h

/-- The second half of a signature is (e + r·d) / k. It is stated without the division, which
is how it is used. -/
theorem second_mul_secret {scalar digest k : Nat} (hk : InRange k) {sig : Signature}
    (hs : sig.s = Modular.inv n k * (digest % n + sig.r * scalar) % n) :
    (sig.s : ZMod n) * k = digest + sig.r * scalar := by
  have hcast := congrArg (Nat.cast : Nat → ZMod n) hs
  simp only [ZMod.natCast_mod, Nat.cast_mul, Nat.cast_add, cast_inv] at hcast
  rw [hcast, mul_comm, mul_inv_cancel_left₀ (cast_ne_zero_of_inRange hk)]

/-- The numbers of a verification add up to the secret number: u + v·d = (e + r·d) / s = k.
The calculation is in the field of the order, where s has an inverse. -/
theorem verification_sum {scalar digest k : Nat} (hk : InRange k) {sig : Signature}
    (hs : sig.s = Modular.inv n k * (digest % n + sig.r * scalar) % n) (hs0 : InRange sig.s) :
    ((digest % n * Modular.inv n sig.s % n + sig.r * Modular.inv n sig.s % n * scalar : Nat) :
      ZMod n) = k := by
  simp only [ZMod.natCast_mod, Nat.cast_mul, Nat.cast_add, cast_inv]
  calc (digest : ZMod n) * (sig.s : ZMod n)⁻¹ + sig.r * (sig.s : ZMod n)⁻¹ * scalar
      = (sig.s : ZMod n)⁻¹ * (digest + sig.r * scalar) := by ring
    _ = (sig.s : ZMod n)⁻¹ * (sig.s * k) := by rw [second_mul_secret hk hs]
    _ = k := inv_mul_cancel_left₀ (cast_ne_zero_of_inRange hs0) _

/-- A signature is verified under the point of the scalar that it was made with. The sum that
the verification computes is the multiple of the generator by the secret number, and its
abscissa is the first half. -/
theorem verify_of_signWith? {scalar digest k : Nat} (hscalar : InRange scalar) (hk : InRange k)
    {sig : Signature} (hsign : signWith? scalar digest k = some sig) {x y : Nat}
    (hpublic : P256.baseMul scalar = .affine x y) : verify x y digest sig = true := by
  obtain ⟨rx, ry, hpoint, hr, hs, hreduced⟩ := signWith?_eq_some_iff.1 hsign
  obtain ⟨x', y', hns, hx, hy, hsome, hmul⟩ := Curve.baseMul_spec hscalar
  obtain ⟨rfl, rfl⟩ := P256.Point.affine.inj (hpublic.symm.trans hmul)
  have hwidth : ∀ a : Nat, a % n < 2 ^ 256 := fun a => Nat.lt_trans (mod_lt_n a) (by decide)
  -- Both summands are multiples of the generator, and so is their sum.
  have hu := Curve.represents_mul Curve.represents_base
    (hwidth (digest % n * Modular.inv n sig.s))
  have hv := Curve.represents_mul (Curve.represents_affine hx hy hns)
    (hwidth (sig.r * Modular.inv n sig.s))
  have hsum := Curve.represents_add hu hv
  rw [← hsome, ← mul_nsmul', ← add_nsmul,
    nsmul_generator_eq (verification_sum hk hs hreduced.s)] at hsum
  unfold verify
  dsimp only
  rw [Curve.toPoint_eq_baseMul hk hsum, hpoint]
  simp only
  rw [hr, beq_self_eq_true]

end

/-! ### Signatures with derived numbers -/

/-- A number that suits gives a signature. To suit is to be found and to lead to two halves
that are not zero, which is all that signing can fail by. -/
theorem exists_sign?_of_suits {scalar digest : Nat} (h : Nonce.Suits scalar digest) :
    ∃ sig, sign? scalar digest = some sig := by
  obtain ⟨k, x, y, hderive, hpoint, hr, hs⟩ := h
  refine ⟨⟨x % n, Modular.inv n k * (digest % n + x % n * scalar) % n⟩, ?_⟩
  rw [sign?, hderive, Option.bind_some]
  exact signWith?_eq_some_iff.2 ⟨x, y, hpoint, rfl, rfl, ⟨Nat.pos_of_ne_zero hr, mod_lt_n _⟩,
    ⟨Nat.pos_of_ne_zero hs, mod_lt_n _⟩⟩

/-- A signature has its halves in range and is verified under the point of its scalar, for
every digest that gets one. A signature that fails its own check can therefore not be handed
out, whatever the secret number was. -/
theorem sign?_spec {scalar digest : Nat} (hscalar : InRange scalar) {sig : Signature}
    (h : sign? scalar digest = some sig) {x y : Nat}
    (hpublic : P256.baseMul scalar = .affine x y) :
    sig.Reduced ∧ verify x y digest sig = true := by
  obtain ⟨k, hderive, hsign⟩ := Option.bind_eq_some_iff.1 h
  obtain ⟨_, _, _, _, _, hreduced⟩ := signWith?_eq_some_iff.1 hsign
  exact ⟨hreduced, verify_of_signWith? hscalar (Nonce.derive_inRange hderive) hsign hpublic⟩

/-! ### Bytes -/

/-- A signature has 64 bytes, 32 for each half. Each half is written with leading zeros. -/
theorem Signature.length_bytes (sig : Signature) : sig.bytes.length = 64 := by
  rw [bytes, List.length_append, Bytes.length_ofNat, Bytes.length_ofNat]

/-- A signature is read back from its bytes. The reader asks for halves in range, and the
halves of a signature are. Each half is below 2^256, so its 32 bytes lose nothing. -/
theorem Signature.ofBytes?_bytes {sig : Signature} (h : sig.Reduced) :
    ofBytes? sig.bytes = some sig := by
  have htake : Bytes.toNat (sig.bytes.take 32) = sig.r := by
    rw [bytes, List.take_left' (Bytes.length_ofNat _ _), Bytes.toNat_ofNat h.r.lt_width]
  have hdrop : Bytes.toNat (sig.bytes.drop 32) = sig.s := by
    rw [bytes, List.drop_left' (Bytes.length_ofNat _ _), Bytes.toNat_ofNat h.s.lt_width]
  rw [ofBytes?, htake, hdrop]
  exact if_pos ⟨sig.length_bytes, h.r.1, h.r.2, h.s.1, h.s.2⟩

end Ecdsa
end Keyring
