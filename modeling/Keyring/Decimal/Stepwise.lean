import Keyring.Decimal.Binary

/-!
# `Keyring.Decimal.Stepwise`: numbers computed from decimals step by step

A decimal of at most 64 bits of digits is turned into a number by one product
or quotient with a power of ten. The digits, the power and the result are
rounded one after the other, so the result may be a neighbour of the number
nearest to the decimal. Digits that do not fit into 64 bits are dropped.

* `Decimal.stepwise?`: the number computed from digits and an exponent.
* `Decimal.takeFitting`: the leading digits that fit.
-/

set_option autoImplicit false

namespace Keyring.Decimal

/-! ### Products and quotients -/

namespace Binary

variable {f : Format}

/-- The product of two numbers, rounded, if it is within the format. -/
def mul? (x y : Binary f) : Option (Binary f) :=
  ofQuotient? f (x.negative != y.negative) (x.fraction.1 * y.fraction.1)
    (x.fraction.2 * y.fraction.2)

/-- The quotient of two numbers, rounded, if it is within the format. -/
def div? (x y : Binary f) : Option (Binary f) :=
  if y.bits = 0 then none
  else
    ofQuotient? f (x.negative != y.negative) (x.fraction.1 * y.fraction.2)
      (x.fraction.2 * y.fraction.1)

end Binary

/-! ### Powers of ten -/

/-- The largest power of ten that is a number of 64 bits. -/
def maxPower : Nat := 308

/-- A number times a power of ten, if it is within the format. Zero stays zero under any
power. -/
def timesTen? (x : Binary .double) (power : Nat) : Option (Binary .double) :=
  if maxPower < power then (if x.bits = 0 then some x else none)
  else do x.mul? (← nearest? .double false 1 power)

/-- A number divided by a power of ten, by the largest power at a time. -/
def perTen? (x : Binary .double) (power : Nat) : Option (Binary .double) :=
  if maxPower < power then
    if x.bits = 0 then some x
    else do perTen? (← x.div? (← nearest? .double false 1 maxPower)) (power - maxPower)
  else do x.div? (← nearest? .double false 1 power)
termination_by power
decreasing_by
  have : 0 < maxPower := by decide
  omega

/-! ### Decimals -/

/-- The number of digits as long as it fits into 64 bits, from a number that stands before
them, and how many of them fit. -/
def takeFitting : (start : Nat) → (digits : List Char) → Nat × Nat
  | start, [] => (start, 0)
  | start, c :: rest =>
    let next := start * 10 + (c.toNat - 48)
    if next < 18446744073709551616 then
      let (value, count) := takeFitting next rest
      (value, count + 1)
    else (start, 0)

/-- The number computed from the digits before and after a point and an exponent. Digits
before the point that do not fit count as zeros. -/
def stepwise? (negative : Bool) (whole part : List Char) (exponent : Int) :
    Option (Binary .double) := do
  let (digits, wholeCount) := takeFitting 0 whole
  let (digits, partCount) := takeFitting digits part
  let exponent := exponent + (whole.length - wholeCount : Nat) - partCount
  let x ← nearest? .double negative digits 0
  if 0 ≤ exponent then timesTen? x exponent.toNat else perTen? x exponent.natAbs

end Keyring.Decimal
