/-!
# `Keyring.Curve.Modular`: powers and inverses modulo a prime

Numbers modulo `m` are natural numbers below `m`. Powers run over the 256
binary digits of the exponent, the first digit first, and the inverse of a
number modulo a prime is a power of it (Fermat).
-/

set_option autoImplicit false

namespace Keyring.Modular

/-- The `width` lowest binary digits of a number, the most significant first. -/
def bits : (width n : Nat) → List Bool
  | 0, _ => []
  | width + 1, n => n.testBit width :: bits width n

/-- `base` to the power of an exponent below 2^256, modulo `m`. -/
def pow (m base exponent : Nat) : Nat :=
  (bits 256 exponent).foldl
    (fun acc bit =>
      let square := acc * acc % m
      if bit then square * base % m else square) 1

/-- The inverse of a number modulo a prime below 2^256; zero has the inverse zero. -/
def inv (p n : Nat) : Nat := pow p n (p - 2)

/-- The difference of two numbers below `m`, modulo `m`. -/
def sub (m a b : Nat) : Nat := (a + (m - b)) % m

end Keyring.Modular
