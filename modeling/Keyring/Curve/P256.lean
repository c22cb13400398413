import Keyring.Curve.Modular

/-!
# `Keyring.Curve.P256`: the elliptic curve P-256 (FIPS 186-4, D.1.2.3)

The points of y² = x³ − 3x + b modulo `p`, together with the point at
infinity, form a group of prime order `n` generated by `base`. Sums are
computed in Jacobian coordinates, where (x : y : z) stands for the point
(x / z², y / z³) and z = 0 for infinity, so that only one inverse is taken at
the end.
-/

set_option autoImplicit false

namespace Keyring.P256

/-- The prime that coordinates are taken modulo. -/
def p : Nat := 0xffffffff00000001000000000000000000000000ffffffffffffffffffffffff

/-- The order of the group. -/
def n : Nat := 0xffffffff00000000ffffffffffffffffbce6faada7179e84f3b9cac2fc632551

/-- The constant of the curve's equation. -/
def b : Nat := 0x5ac635d8aa3a93e7b3ebbd55769886bc651d06b0cc53b0f63bce3c3e27d2604b

/-- A point of the curve in plain coordinates. -/
inductive Point where
  | infinity
  | affine (x y : Nat)
  deriving DecidableEq, Repr

/-- Are these the reduced coordinates of a point? -/
def onCurve (x y : Nat) : Bool :=
  x < p && y < p && y * y % p == (x * x * x + (p - 3) * x + b) % p

/-! ### Jacobian coordinates -/

/-- A point in Jacobian coordinates. -/
structure Jacobian where
  (x y z : Nat)
  deriving DecidableEq, Repr

namespace Jacobian

/-- The point at infinity. -/
def infinity : Jacobian := ⟨1, 1, 0⟩

/-- Twice a point. -/
def double (u : Jacobian) : Jacobian :=
  if u.z = 0 ∨ u.y = 0 then infinity
  else
    let zz := u.z * u.z % p
    let yy := u.y * u.y % p
    let s := 4 * u.x * yy % p
    let m := 3 * (Modular.sub p u.x zz * ((u.x + zz) % p)) % p
    let x := Modular.sub p (m * m % p) (2 * s % p)
    ⟨x, Modular.sub p (m * Modular.sub p s x % p) (8 * yy * yy % p), 2 * u.y * u.z % p⟩

/-- The sum of two points. -/
def add (u v : Jacobian) : Jacobian :=
  if u.z = 0 then v
  else if v.z = 0 then u
  else
    let uzz := u.z * u.z % p
    let vzz := v.z * v.z % p
    let u1 := u.x * vzz % p
    let u2 := v.x * uzz % p
    let s1 := u.y * (vzz * v.z % p) % p
    let s2 := v.y * (uzz * u.z % p) % p
    let h := Modular.sub p u2 u1
    let r := Modular.sub p s2 s1
    if h = 0 then
      if r = 0 then double u else infinity
    else
      let hh := h * h % p
      let hhh := h * hh % p
      let w := u1 * hh % p
      let x := Modular.sub p (Modular.sub p (r * r % p) hhh) (2 * w % p)
      ⟨x, Modular.sub p (r * Modular.sub p w x % p) (s1 * hhh % p), u.z * v.z % p * h % p⟩

/-- The multiple of a point by a number below 2^256. -/
def mul (k : Nat) (u : Jacobian) : Jacobian :=
  (Modular.bits 256 k).foldl
    (fun acc bit => if bit then add (double acc) u else double acc) infinity

/-- The plain coordinates of a point. -/
def toPoint (u : Jacobian) : Point :=
  if u.z = 0 then .infinity
  else
    let i := Modular.inv p u.z
    let ii := i * i % p
    .affine (u.x * ii % p) (u.y * (ii * i % p) % p)

end Jacobian

/-- The generator of the group. -/
def base : Jacobian where
  x := 0x6b17d1f2e12c4247f8bce6e563a440f277037d812deb33a0f4a13945d898c296
  y := 0x4fe342e2fe1a7f9b8ee7eb4a7c0f9e162bce33576b315ececbb6406837bf51f5
  z := 1

/-- The multiple of the generator by a number. -/
def baseMul (k : Nat) : Point := (Jacobian.mul k base).toPoint

end Keyring.P256
