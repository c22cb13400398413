/-!
# `Keyring.Decimal.Binary`: binary floating-point numbers

The finite numbers of an IEEE 754 binary format, held as a sign and the bits
below it. The bits count the numbers of the format upwards from zero, so
neighbouring bit patterns are neighbouring numbers and every pattern below the
one of infinity is a number. A quotient of natural numbers is rounded to the
nearest number of a format, a tie going to the even pattern.
-/

set_option autoImplicit false

namespace Keyring.Decimal

/-- The widths of a binary format. -/
structure Format where
  fractionBits : Nat
  exponentBits : Nat
  deriving DecidableEq, Repr

namespace Format

/-- The format of 32 bits. -/
def single : Format := ⟨23, 8⟩

/-- The format of 64 bits. -/
def double : Format := ⟨52, 11⟩

/-- The bits of infinity: the first pattern that is no finite number. -/
def top (f : Format) : Nat := (Nat.pow 2 f.exponentBits - 1) * Nat.pow 2 f.fractionBits

/-- The power of two that the smallest positive number is. -/
def minPower (f : Format) : Int := 2 - (Nat.pow 2 (f.exponentBits - 1) : Nat) - f.fractionBits

end Format

/-- A finite number of a format. -/
structure Binary (f : Format) where
  negative : Bool
  bits : Nat
  finite : bits < f.top
  deriving DecidableEq, Repr

namespace Binary

variable {f : Format}

/-- Zero with a sign. -/
def zero (f : Format) (negative : Bool) (h : 0 < f.top := by decide) : Binary f := ⟨negative, 0, h⟩

/-- The magnitude as `m` times two to the power `q`. -/
def decode (x : Binary f) : Nat × Int :=
  let one := Nat.pow 2 f.fractionBits
  let exponent := x.bits / one
  let fraction := x.bits % one
  if exponent = 0 then (fraction, f.minPower)
  else (fraction + one, f.minPower + (exponent - 1))

/-- The magnitude as a quotient of natural numbers. -/
def fraction (x : Binary f) : Nat × Nat :=
  let (m, q) := x.decode
  (m * Nat.pow 2 q.toNat, Nat.pow 2 (-q).toNat)

end Binary

/-- A quotient rounded to the nearest natural number, a tie to the even one. -/
def roundDiv (num den : Nat) : Nat :=
  let floor := num / den
  let twice := 2 * (num % den)
  if twice < den then floor
  else if den < twice then floor + 1
  else floor + floor % 2

/-- The largest power of two that is at most a positive quotient. -/
def floorLog2 (num den : Nat) : Int :=
  let k : Int := num.log2 - den.log2
  if num * Nat.pow 2 (-k).toNat < den * Nat.pow 2 k.toNat then k - 1 else k

/-- The bits of the number of a format nearest to a quotient; `f.top` or more if
it is beyond the format. -/
def nearestBits (f : Format) (num den : Nat) : Nat :=
  if num = 0 then 0
  else
    let q := max f.minPower (floorLog2 num den - f.fractionBits)
    (q - f.minPower).toNat * Nat.pow 2 f.fractionBits +
      roundDiv (num * Nat.pow 2 (-q).toNat) (den * Nat.pow 2 q.toNat)

/-- The number nearest to `digits` times ten to the power `exponent`, if it is
within the format. Exponents far beyond any format are decided by the number
of digits alone. -/
def nearest? (f : Format) (negative : Bool) (digits : Nat) (exponent : Int) : Option (Binary f) :=
  let lead : Int := (Nat.toDigits 10 digits).length + exponent
  let bits :=
    if digits = 0 ∨ lead < -400 then 0
    else if lead > 400 then f.top
    else nearestBits f (digits * Nat.pow 10 exponent.toNat) (Nat.pow 10 (-exponent).toNat)
  if h : bits < f.top then some ⟨negative, bits, h⟩ else none

/-- The number nearest to a quotient, if it is within the format. -/
def Binary.ofQuotient? (f : Format) (negative : Bool) (num den : Nat) : Option (Binary f) :=
  let bits := nearestBits f num den
  if h : bits < f.top then some ⟨negative, bits, h⟩ else none

/-- A number of a narrow format in a wider one. -/
def Binary.widen? {f : Format} (x : Binary f) (g : Format) : Option (Binary g) :=
  ofQuotient? g x.negative x.fraction.1 x.fraction.2

end Keyring.Decimal
