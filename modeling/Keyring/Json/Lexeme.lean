import Keyring.Decimal.Stepwise
import Keyring.Json.Cursor

/-!
# `Keyring.Json.Lexeme`: texts and numbers

Reads the two kinds of scalar that need more than a word: texts with their
escapes and numbers with fraction and exponent. A float is rounded once or in
steps, as the reader of the text asks. Each has a second reader that
only passes over it, for parts of a text that nobody asked for; that one is
laxer about surrogates and stricter about a number that ends too early.
-/

set_option autoImplicit false

namespace Keyring.Json

open Cursor

/-! ### Texts -/

/-- The value of a hexadecimal digit. -/
def hexValue? (x : Char) : Option Nat :=
  if x.isDigit then some (x.toNat - 48)
  else if 'a' ≤ x ∧ x ≤ 'f' then some (x.toNat - 87)
  else if 'A' ≤ x ∧ x ≤ 'F' then some (x.toNat - 55)
  else none

/-- The number that four hexadecimal digits stand for. -/
def hexQuad? : List Char → Option Nat
  | a :: b :: c :: d :: _ =>
    match hexValue? a, hexValue? b, hexValue? c, hexValue? d with
    | some a, some b, some c, some d => some (4096 * a + 256 * b + 16 * c + d)
    | _, _, _, _ => none
  | _ => none

/-- Reads the four digits after `\u`. -/
def readQuad (c : Cursor) : Except Fault (Nat × Cursor) :=
  match hexQuad? c.rest with
  | some n => .ok (n, c.skip 4)
  | none =>
    if (String.ofList c.rest).utf8ByteSize < 4 then .error ((c.skip c.rest.length).fault .endInText)
    else .error ⟨.badEscape, c.pos.pastBytes 4 c.rest⟩

/-- The character that a letter after a backslash stands for. -/
def shortEscape? : Char → Option Char
  | '"' => some '"'
  | '\\' => some '\\'
  | '/' => some '/'
  | 'b' => some '\x08'
  | 'f' => some '\x0c'
  | 'n' => some '\n'
  | 'r' => some '\r'
  | 't' => some '\t'
  | _ => none

/-- Reads the second half of a surrogate pair, `\uDC00` to `\uDFFF`. -/
def readLowSurrogate (c : Cursor) : Except Fault (Nat × Cursor) :=
  match c.rest with
  | [] => .error (c.fault .endInText)
  | '\\' :: rest =>
    match rest with
    | [] => .error (c.next.fault .endInText)
    | 'u' :: _ => do
      let (low, c) ← readQuad (c.skip 2)
      if 0xDC00 ≤ low ∧ low ≤ 0xDFFF then .ok (low, c) else .error (c.fault .loneSurrogate)
    | _ => .error (c.next.faultAhead .brokenSurrogatePair)
  | _ => .error (c.faultAhead .brokenSurrogatePair)

/-- Reads an escape after its backslash. -/
def readEscape (c : Cursor) : Except Fault (Char × Cursor) :=
  match c.rest with
  | [] => .error (c.fault .endInText)
  | 'u' :: _ => do
    let (n, c) ← readQuad c.next
    if 0xDC00 ≤ n ∧ n ≤ 0xDFFF then .error (c.fault .loneSurrogate)
    else if n < 0xD800 ∨ 0xDBFF < n then .ok (Char.ofNat n, c)
    else do
      let (low, c) ← readLowSurrogate c
      .ok (Char.ofNat (0x10000 + 1024 * (n - 0xD800) + (low - 0xDC00)), c)
  | x :: _ =>
    match shortEscape? x with
    | some y => .ok (y, c.next)
    | none => .error (c.faultAhead .badEscape)

/-- Reads characters up to the closing quote and puts them before those in `done`,
the last first; each turn passes one or more. -/
def readChars : (turns : Nat) → (done : List Char) → Cursor → Except Fault (List Char × Cursor)
  | 0, _, c => .error (c.fault .endInText)
  | turns + 1, done, c =>
    match c.rest with
    | [] => .error (c.fault .endInText)
    | '"' :: _ => .ok (done.reverse, c.next)
    | '\\' :: _ => do
      let (x, c) ← readEscape c.next
      readChars turns (x :: done) c
    | x :: _ =>
      if x.toNat < 32 then .error (c.faultAhead .bareControl)
      else readChars turns (x :: done) c.next

/-- Reads a text after its opening quote. -/
def readText (c : Cursor) : Except Fault (String × Cursor) := do
  let (xs, c) ← readChars (c.rest.length + 1) [] c
  .ok (String.ofList xs, c)

/-- Passes over an escape after its backslash. -/
def skipEscape (c : Cursor) : Except Fault Cursor :=
  match c.rest with
  | [] => .error (c.fault .endInText)
  | 'u' :: _ => (readQuad c.next).map (·.2)
  | x :: _ => if (shortEscape? x).isSome then .ok c.next else .error (c.faultAhead .badEscape)

/-- Passes over characters up to the closing quote. -/
def skipChars : (turns : Nat) → Cursor → Except Fault Cursor
  | 0, c => .error (c.fault .endInText)
  | turns + 1, c =>
    match c.rest with
    | [] => .error (c.fault .endInText)
    | '"' :: _ => .ok c.next
    | '\\' :: _ => do skipChars turns (← skipEscape c.next)
    | x :: _ =>
      if x.toNat < 32 then .error (c.fault .bareControl) else skipChars turns c.next

/-- Passes over a text after its opening quote. -/
def skipText (c : Cursor) : Except Fault Cursor := skipChars (c.rest.length + 1) c

/-! ### Numbers -/

/-- The value of decimal digits. -/
def digitsValue (digits : List Char) : Nat :=
  digits.foldl (fun n x => n * 10 + (x.toNat - 48)) 0

/-- Reads the digits before the point. -/
def readWholePart (c : Cursor) : Except Fault (List Char × Cursor) :=
  match c.rest with
  | [] => .error (c.fault .endInValue)
  | '0' :: next :: _ => if next.isDigit then .error (c.next.faultAhead .badNumber)
    else .ok (['0'], c.next)
  | x :: _ => if x.isDigit then .ok c.takeDigits else .error (c.faultAhead .badNumber)

/-- Reads a point and the digits after it, if there is a point. -/
def readFraction (c : Cursor) : Except Fault (Option (List Char) × Cursor) :=
  match c.rest with
  | '.' :: _ =>
    let (digits, c) := c.next.takeDigits
    if digits.isEmpty then
      .error (c.faultAhead (if c.rest.isEmpty then .endInValue else .badNumber))
    else .ok (some digits, c)
  | _ => .ok (none, c)

/-- The largest exponent that is told apart from a larger one. -/
def maxExponent : Nat := 2147483647

/-- Reads exponent digits. A positive exponent that grows too large is out of range
at once, unless the digits are all zero. -/
def readExponentDigits (bounded : Bool) : (turns value : Nat) → Cursor → Except Fault (Nat × Cursor)
  | 0, value, c => .ok (value, c)
  | turns + 1, value, c =>
    match c.rest with
    | x :: _ =>
      if x.isDigit then
        let value := value * 10 + (x.toNat - 48)
        if maxExponent < value then
          if bounded then .error (c.next.fault .numberRange)
          else .ok (value, c.takeDigits.2)
        else readExponentDigits bounded turns value c.next
      else .ok (value, c)
    | [] => .ok (value, c)

/-- Reads an exponent, if there is one. -/
def readExponent (zero : Bool) (c : Cursor) : Except Fault (Option Int × Cursor) :=
  match c.rest with
  | x :: rest =>
    if x = 'e' ∨ x = 'E' then
      let minus := rest.head? == some '-'
      let c := if minus || rest.head? == some '+' then c.skip 2 else c.next
      match c.rest with
      | [] => .error (c.fault .endInValue)
      | d :: _ =>
        if d.isDigit then do
          let (n, c) ← readExponentDigits (!zero && !minus) c.rest.length 0 c
          .ok (some (if minus then -(n : Int) else n), c)
        else .error (c.faultAhead .badNumber)
    else .ok (none, c)
  | [] => .ok (none, c)

/-- A number as it was read. -/
inductive Number where
  | whole (n : Whole)
  | float (x : Decimal.Binary .double)
  deriving DecidableEq, Repr

/-- What a number is as part of a message. -/
def Number.found : Number → Found
  | .whole n => .whole n.val
  | .float x => .float x

/-- How a decimal becomes a float. -/
inductive Rounding where
  /-- The float nearest to the decimal. -/
  | once
  /-- The float that is computed from digits and exponent, each step rounded. -/
  | stepwise
  deriving DecidableEq, Repr

/-- The float of digits before and after the point and an exponent, if it is in range. -/
def Rounding.float? (rounding : Rounding) (negative : Bool) (whole part : List Char)
    (exponent : Int) : Option (Decimal.Binary .double) :=
  match rounding with
  | .once =>
    Decimal.nearest? .double negative (digitsValue (whole ++ part)) (exponent - part.length)
  | .stepwise => Decimal.stepwise? negative whole part exponent

/-- The number of a sign, digits before and after the point, and an exponent.
Without fraction and exponent it is whole where that keeps it exactly; minus
zero is a float. -/
def Number.ofParts? (rounding : Rounding) (negative : Bool) (digits : List Char)
    (part : Option (List Char)) (exponent : Option Int) : Option Number :=
  let value := digitsValue digits
  let float :=
    (rounding.float? negative digits (part.getD []) (exponent.getD 0)).map Number.float
  if part.isNone && exponent.isNone && !(negative && value == 0) then
    match Whole.ofInt? (if negative then -(value : Int) else value) with
    | some n => some (.whole n)
    | none => float
  else float

/-- Reads a number after its sign. -/
def readNumber (rounding : Rounding) (negative : Bool) (c : Cursor) :
    Except Fault (Number × Cursor) := do
  let (digits, c) ← readWholePart c
  let (part, c) ← readFraction c
  let zero := (digits ++ part.getD []).all (· == '0')
  let (exponent, c) ← readExponent zero c
  match Number.ofParts? rounding negative digits part exponent with
  | some n => .ok (n, c)
  | none => .error (c.fault .numberRange)

/-- Passes over an exponent, if there is one. -/
def skipExponent (c : Cursor) : Except Fault Cursor :=
  match c.rest with
  | x :: rest =>
    if x = 'e' ∨ x = 'E' then
      let c := if rest.head? == some '-' || rest.head? == some '+' then c.skip 2 else c.next
      match c.rest with
      | d :: _ => if d.isDigit then .ok c.takeDigits.2 else .error (c.faultAhead .badNumber)
      | [] => .error (c.fault .badNumber)
    else .ok c
  | [] => .ok c

/-- Passes over a number after its sign. -/
def skipNumber (c : Cursor) : Except Fault Cursor := do
  let c ←
    match c.rest with
    | [] => .error (c.fault .badNumber)
    | _ => (readWholePart c).map (·.2)
  match c.rest with
  | '.' :: _ =>
    let (digits, c) := c.next.takeDigits
    if digits.isEmpty then .error (c.faultAhead .badNumber) else skipExponent c
  | _ => skipExponent c

end Keyring.Json
