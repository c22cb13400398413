import Keyring.Decimal.Shortest

/-!
# `Keyring.Decimal.Notation`: how a number is written

The shortest digits of a number are written plainly, or with an exponent where
the style says so. A style is one record: the powers of ten of the first digit
that are written plainly, whether a whole number shows a fraction digit, and
which way a tie between digits goes.
-/

set_option autoImplicit false

namespace Keyring.Decimal

/-- How numbers are written. -/
structure Style where
  /-- The powers of ten of the first digit that are written plainly; all if absent. -/
  plain : Option (Int × Int)
  /-- Does a whole number end in `.0`? -/
  pointed : Bool
  tie : Tie

/-- A number in a canonical text: plain from 1e-5 up to 1e16. -/
def Style.canonical : Style := ⟨some (-5, 15), true, .toEven⟩

/-- A number of 32 bits as a key: plain from 1e-6 up to 1e13. -/
def Style.narrowKey : Style := ⟨some (-6, 12), true, .toEven⟩

/-- A number in a message: always plain, with a point. -/
def Style.message : Style := ⟨none, true, .away⟩

/-- A number taken as a text: always plain, a whole number without a point. -/
def Style.bare : Style := ⟨none, false, .away⟩

/-- The digits before and after the point of a plain decimal. -/
def Digits.split (d : Digits) : List Char × List Char :=
  if d.lead < 0 then
    (['0'], List.replicate (-d.lead - 1).toNat '0' ++ d.digits)
  else
    let whole := d.lead.toNat + 1
    (d.digits.take whole ++ List.replicate (whole - d.digits.length) '0', d.digits.drop whole)

/-- A plain decimal. -/
def Digits.plain (d : Digits) (pointed : Bool) : List Char :=
  let (whole, part) := d.split
  if part.isEmpty then whole ++ (if pointed then ['.', '0'] else [])
  else whole ++ '.' :: part

/-- A decimal with an exponent; its sign is always shown. -/
def Digits.withExponent (d : Digits) : List Char :=
  let mantissa :=
    match d.digits with
    | [] => ['0']
    | [c] => [c]
    | c :: rest => c :: '.' :: rest
  mantissa ++ 'e' :: (if d.lead < 0 then '-' else '+') :: Nat.toDigits 10 d.lead.natAbs

/-- A number as characters. -/
def Binary.chars {f : Format} (style : Style) (x : Binary f) : List Char :=
  let sign := if x.negative then ['-'] else []
  if x.bits = 0 then sign ++ (if style.pointed then ['0', '.', '0'] else ['0'])
  else
    let d := x.shortest style.tie
    sign ++
      match style.plain with
      | some (low, high) =>
        if low ≤ d.lead ∧ d.lead ≤ high then d.plain style.pointed else d.withExponent
      | none => d.plain style.pointed

/-- A number as a text. -/
def Binary.render {f : Format} (style : Style) (x : Binary f) : String :=
  String.ofList (x.chars style)

end Keyring.Decimal
