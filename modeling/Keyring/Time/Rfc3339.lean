import Keyring.Text.Blank
import Keyring.Time.Instant

/-!
# `Keyring.Time.Rfc3339`: points in time as text

An instant is written in UTC with as many fraction digits as it needs, in
groups of three, and with a sign before a year outside 0 … 9999. What is read
is laxer: one digit is enough for a part, blanks may stand between parts, any
number of fraction digits is taken, and the offset may be any of `Z`, `UTC`
or hours and minutes.

A leap second is written as the second after the one it is counted from. That
is second 60 where it ends a minute, and only this is read as a leap second.
-/

set_option autoImplicit false

namespace Keyring.Rfc3339

/-! ### Writing -/

/-- A number in at least `width` decimal digits. -/
def padded (width n : Nat) : List Char :=
  let digits := Nat.toDigits 10 n
  List.replicate (width - digits.length) '0' ++ digits

/-- A year. -/
def yearChars (year : Int) : List Char :=
  if 0 ≤ year ∧ year ≤ 9999 then padded 4 year.toNat
  else (if year < 0 then '-' else '+') :: padded 4 year.natAbs

/-- The fraction of a second. -/
def fractionChars (nanos : Nat) : List Char :=
  if nanos = 0 then []
  else if nanos % 1000000 = 0 then '.' :: padded 3 (nanos / 1000000)
  else if nanos % 1000 = 0 then '.' :: padded 6 (nanos / 1000)
  else '.' :: padded 9 nanos

/-- An instant as characters; a leap second shows as the second after its own. -/
def chars (t : Instant) : List Char :=
  let date := Calendar.Date.ofDays t.day
  let leap := t.nanos / 1000000000
  yearChars date.year ++ '-' :: padded 2 date.month ++ '-' :: padded 2 date.day ++
    'T' :: padded 2 (t.second / 3600) ++ ':' :: padded 2 (t.second / 60 % 60) ++
    ':' :: padded 2 (t.second % 60 + leap) ++ fractionChars (t.nanos % 1000000000) ++ ['Z']

/-- An instant as a text. -/
def render (t : Instant) : String := String.ofList (chars t)

/-! ### Reading -/

/-- Why a text is no instant. -/
inductive Error where
  | outOfRange
  | impossible
  | invalid
  | tooShort
  | tooLong
  deriving DecidableEq, Repr

/-- The wording of an error. -/
def Error.message : Error → String
  | .outOfRange => "input is out of range"
  | .impossible => "no possible date and time matching input"
  | .invalid => "input contains invalid characters"
  | .tooShort => "premature end of input"
  | .tooLong => "trailing input"

/-- Reads one to `width` digits; a number beyond 64 bits is out of range. -/
def readDigits (width : Nat) (text : List Char) : Except Error (Nat × List Char) :=
  match text with
  | [] => .error .tooShort
  | first :: _ =>
    if first.isDigit then
      let digits := (text.take width).takeWhile Char.isDigit
      let value := digits.foldl (fun n c => n * 10 + (c.toNat - 48)) 0
      if 9223372036854775808 ≤ value then .error .outOfRange
      else .ok (value, text.drop digits.length)
    else .error .invalid

/-- Reads a part of a date or a time after blanks and checks its range. -/
def readPart (low high : Nat) (text : List Char) : Except Error (Nat × List Char) := do
  let (n, text) ← readDigits 2 (Text.skipBlanks text)
  if low ≤ n ∧ n ≤ high then .ok (n, text) else .error .outOfRange

/-- Reads a year: up to four digits, or any number after a sign. -/
def readYear (text : List Char) : Except Error (Int × List Char) := do
  let text := Text.skipBlanks text
  let (year, text) ←
    match text with
    | '-' :: rest => (readDigits rest.length rest).map fun (n, text) => (-(n : Int), text)
    | '+' :: rest => (readDigits rest.length rest).map fun (n, text) => ((n : Int), text)
    | _ => (readDigits 4 text).map fun (n, text) => ((n : Int), text)
  if -2147483648 ≤ year ∧ year < 2147483648 then .ok (year, text) else .error .outOfRange

/-- Passes over blanks and a separator. -/
def expect (separator : Char) (text : List Char) : Except Error (List Char) :=
  match Text.skipBlanks text with
  | [] => .error .tooShort
  | c :: rest => if c = separator then .ok rest else .error .invalid

/-- Reads the fraction of a second, if there is one, in nanoseconds. -/
def readFraction (text : List Char) : Except Error (Nat × List Char) :=
  match text with
  | '.' :: rest => do
    let (n, after) ← readDigits 9 rest
    .ok (n * Nat.pow 10 (9 - (rest.length - after.length)), after.dropWhile Char.isDigit)
  | _ => .ok (0, text)

/-- Reads two digits. -/
def readPair (text : List Char) : Except Error (Nat × List Char) :=
  match text with
  | [] => .error .tooShort
  | a :: b :: rest =>
    if a.isDigit && b.isDigit then .ok (10 * (a.toNat - 48) + (b.toNat - 48), rest)
    else .error .invalid
  | [c] => .error (if c.utf8Size = 1 then .tooShort else .invalid)

/-- Reads an offset from UTC in seconds. -/
def readOffset (text : List Char) : Except Error (Int × List Char) :=
  match text with
  | 'Z' :: rest | 'z' :: rest => .ok (0, rest)
  | [] => .error .tooShort
  | sign :: rest =>
    if (text.take 3).map Char.toUpper = ['U', 'T', 'C'] then .ok (0, text.drop 3)
    else if sign = '+' ∨ sign = '-' ∨ sign = '\u2212' then do
      let (hours, rest) ← readPair rest
      let (minutes, rest) ← readPair (rest.dropWhile fun c => c == ':' || Text.isBlank c)
      if 60 ≤ minutes then .error .outOfRange
      else
        let seconds : Int := hours * 3600 + minutes * 60
        .ok (if sign = '+' then seconds else -seconds, rest)
    else .error .invalid

/-- The time of a local date and time at an offset. -/
def assemble (date : Calendar.Date) (hour minute second nanos : Nat) (offset : Int) :
    Except Error ClockTime :=
  let days := date.toDays
  let leap := second / 60
  let clock : Int := hour * 3600 + minute * 60 + (second - leap : Nat)
  if !date.isValid || days < Calendar.minDay || Calendar.maxDay < days then .error .outOfRange
  else if offset ≤ -86400 ∨ 86400 ≤ offset then .error .outOfRange
  else
    let utc := days * 86400 + clock - offset
    match ClockTime.ofUnix? utc (leap * 1000000000 + nanos) with
    | some t => .ok t
    | none => .error .impossible

/-- Reads a point in time. -/
def parse (text : String) : Except Error ClockTime := do
  let (year, rest) ← readYear text.toList
  let rest ← expect '-' rest
  let (month, rest) ← readPart 1 12 rest
  let rest ← expect '-' rest
  let (day, rest) ← readPart 1 31 rest
  let rest ←
    match rest with
    | [] => .error .tooShort
    | c :: rest => if c = 't' ∨ c = 'T' ∨ c = ' ' then .ok rest else .error .invalid
  let (hour, rest) ← readPart 0 23 rest
  let rest ← expect ':' rest
  let (minute, rest) ← readPart 0 59 rest
  let rest ← expect ':' rest
  let (second, rest) ← readPart 0 60 rest
  let (nanos, rest) ← readFraction rest
  let (offset, rest) ← readOffset (Text.skipBlanks rest)
  if (Text.skipBlanks rest).isEmpty then
    assemble ⟨year, month, day⟩ hour minute second nanos offset
  else .error .tooLong

end Keyring.Rfc3339
