import Keyring.Decimal.Notation

/-!
# `Keyring.Decimal.Real`: numbers of a format with infinities and NaN

A text of decimal digits, with a point and an exponent if need be, stands for
the number of the format that is nearest to it; beyond the format that is an
infinity.
-/

set_option autoImplicit false

namespace Keyring.Decimal

/-- A number of a binary format, finite or not. -/
inductive Real (f : Format) where
  | finite (x : Binary f)
  | infinite (negative : Bool)
  | nan
  deriving DecidableEq, Repr

namespace Real

/-- The number nearest to `digits` times ten to the power `exponent`. -/
def nearest (f : Format) (negative : Bool) (digits : Nat) (exponent : Int) : Real f :=
  match nearest? f negative digits exponent with
  | some x => .finite x
  | none => .infinite negative

/-- A leading sign, and what follows it. -/
def splitSign : List Char → Bool × List Char
  | '-' :: rest => (true, rest)
  | '+' :: rest => (false, rest)
  | text => (false, text)

/-- The number that decimal digits spell, if they are digits and there is one at least. -/
def digitsValue? (digits : List Char) : Option Nat :=
  if !digits.isEmpty && digits.all Char.isDigit then
    some (digits.foldl (fun n c => n * 10 + (c.toNat - 48)) 0)
  else none

/-- The exponent that follows its letter. -/
def exponent? (text : List Char) : Option Int :=
  match splitSign text with
  | (negative, digits) => (digitsValue? digits).map fun n => if negative then -(n : Int) else n

/-- The number that a text spells. -/
def parse? (f : Format) (text : String) : Option (Real f) :=
  let (negative, body) := splitSign text.toList
  let word := body.map Char.toLower
  if word = "nan".toList then some .nan
  else if word = "inf".toList ∨ word = "infinity".toList then some (.infinite negative)
  else
    let mantissa := body.takeWhile fun c => c.toLower != 'e'
    let whole := mantissa.takeWhile (· != '.')
    let part := (mantissa.drop whole.length).drop 1
    let tail := body.drop mantissa.length
    match digitsValue? (whole ++ part),
      if tail.isEmpty then some 0 else exponent? (tail.drop 1) with
    | some digits, some exponent => some (nearest f negative digits (exponent - part.length))
    | _, _ => none

/-- A number as a text. -/
def render {f : Format} (style : Style) : Real f → String
  | .finite x => x.render style
  | .infinite negative => if negative then "-inf" else "inf"
  | .nan => "NaN"

end Real
end Keyring.Decimal
