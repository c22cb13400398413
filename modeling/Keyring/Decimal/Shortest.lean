import Keyring.Decimal.Binary

/-!
# `Keyring.Decimal.Shortest`: the fewest digits that read back

A number of a binary format stands for the interval of reals that round to
it. For one digit, two digits and so on, the two neighbours of the number on
the decimal grid of so many digits are tried: the first grid with a point in
the interval wins, and of two points the nearer. Where both are equally near,
a `Tie` decides.
-/

set_option autoImplicit false

namespace Keyring.Decimal

/-- A positive decimal: its digits without trailing zeros, and the power of ten
of the first digit. -/
structure Digits where
  digits : List Char
  lead : Int
  deriving DecidableEq, Repr

/-- Which of two equally near points is taken. -/
inductive Tie where
  /-- The one whose last digit is even. -/
  | toEven
  /-- The one farther from zero. -/
  | away
  deriving DecidableEq, Repr

/-- The reals that round to a number, as multiples of `1 / den`. -/
structure Interval where
  low : Nat
  value : Nat
  high : Nat
  den : Nat
  closed : Bool

/-- The interval of a number. Below the first number of a binade the gap is half
as wide. -/
def Binary.interval {f : Format} (x : Binary f) : Interval :=
  let (m, q) := x.decode
  let first := m == Nat.pow 2 f.fractionBits && q != f.minPower
  let scale := Nat.pow 2 q.toNat
  { low := (4 * m - (if first then 1 else 2)) * scale
    value := 4 * m * scale
    high := (4 * m + 2) * scale
    den := 4 * Nat.pow 2 (-q).toNat
    closed := m % 2 == 0 }

/-- Is `num / den` in the interval? -/
def Interval.contains (i : Interval) (num den : Nat) : Bool :=
  if i.closed then i.low * den ≤ num * i.den && num * i.den ≤ i.high * den
  else i.low * den < num * i.den && num * i.den < i.high * den

/-- The power of ten of the first digit of a positive quotient. -/
def floorLog10 (num den : Nat) : Int :=
  if den ≤ num then (Nat.toDigits 10 (num / den)).length - 1
  else -((Nat.toDigits 10 ((den + num - 1) / num - 1)).length : Int)

/-- The point of the interval on the grid of `count` digits that is nearest to the
value, as a multiple of ten to the power `k`. -/
def Interval.onGrid? (i : Interval) (tie : Tie) (k : Int) : Option Nat :=
  let up := Nat.pow 10 (-k).toNat
  let down := Nat.pow 10 k.toNat
  let floor := i.value * up / (i.den * down)
  let below := i.contains (floor * down) up
  let above := i.contains ((floor + 1) * down) up
  let twice := 2 * (i.value * up % (i.den * down))
  if below && above then
    if twice < i.den * down ||
        (twice == i.den * down && tie == .toEven && floor % 2 == 0) then some floor
    else some (floor + 1)
  else if below then some floor
  else if above then some (floor + 1)
  else none

/-- Tries grids of `count` digits and more. -/
def Interval.search (i : Interval) (tie : Tie) (lead : Int) : (grids count : Nat) → Nat × Int
  | 0, _ => (0, 0)
  | grids + 1, count =>
    let k := lead + 1 - count
    match i.onGrid? tie k with
    | some point => (point, k)
    | none => i.search tie lead grids (count + 1)

/-- Digits of `point` times ten to the power `k`. -/
def Digits.ofPoint (point : Nat) (k : Int) : Digits :=
  let all := Nat.toDigits 10 point
  ⟨(all.reverse.dropWhile (· == '0')).reverse, all.length - 1 + k⟩

/-- The digits of a number that is not zero; seventeen always suffice for 64 bits. -/
def Binary.shortest {f : Format} (tie : Tie) (x : Binary f) : Digits :=
  let i := x.interval
  let (point, k) := i.search tie (floorLog10 i.value i.den) 17 1
  .ofPoint point k

end Keyring.Decimal
