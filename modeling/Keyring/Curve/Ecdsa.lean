import Keyring.Curve.Nonce

/-!
# `Keyring.Curve.Ecdsa`: signatures over P-256 (FIPS 186-4)

A signature is a pair of numbers in 1 … n − 1, written as 64 bytes. It is made
from a private scalar and a digest number, and checked against the point that
belongs to the scalar.
-/

set_option autoImplicit false

namespace Keyring.Ecdsa

open P256 (n)

/-- A signature. -/
structure Signature where
  (r s : Nat)
  deriving DecidableEq, Repr

/-- The signature as 64 bytes. -/
def Signature.bytes (sig : Signature) : Bytes := Bytes.ofNat 32 sig.r ++ Bytes.ofNat 32 sig.s

/-- Reads a signature of 64 bytes, both numbers in 1 … n − 1. -/
def Signature.ofBytes? (bytes : Bytes) : Option Signature :=
  let r := Bytes.toNat (bytes.take 32)
  let s := Bytes.toNat (bytes.drop 32)
  if bytes.length = 64 ∧ 0 < r ∧ r < n ∧ 0 < s ∧ s < n then some ⟨r, s⟩ else none

/-- The number of 256 bits that stands for a digest: a longer digest is cut, a
shorter one stands for itself, and one below half the width is refused. -/
def digestNumber? (digest : Bytes) : Option Nat :=
  if digest.length < 16 then none else some (Bytes.toNat (digest.take 32))

/-- The signature of a digest number with the secret number `k`. -/
def signWith? (scalar digest k : Nat) : Option Signature :=
  match P256.baseMul k with
  | .infinity => none
  | .affine x _ =>
    let r := x % n
    let s := Modular.inv n k * (digest % n + r * scalar) % n
    if r = 0 ∨ s = 0 then none else some ⟨r, s⟩

/-- The signature of a digest number. -/
def sign? (scalar digest : Nat) : Option Signature :=
  (Nonce.derive scalar digest).bind (signWith? scalar digest)

/-- Does the signature belong to the digest number under the public point? -/
def verify (x y digest : Nat) (sig : Signature) : Bool :=
  let w := Modular.inv n sig.s
  let u := P256.Jacobian.mul (digest % n * w % n) P256.base
  let v := P256.Jacobian.mul (sig.r * w % n) ⟨x, y, 1⟩
  match (u.add v).toPoint with
  | .infinity => false
  | .affine x _ => x % n == sig.r

end Keyring.Ecdsa
