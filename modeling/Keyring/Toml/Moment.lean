import Keyring.Toml.Lexeme

/-!
# `Keyring.Toml.Moment`: dates and times in texts

A date, a time, or both may also be given by a text. The text is read by rules
of its own: it has to be a moment from end to end, the widths of its numbers
are told apart from their ranges, and a fault says which part is wrong and what
would have been right.

* `Toml.momentOf`: the moment that a text gives.
-/

set_option autoImplicit false

namespace Keyring.Toml

/-- Why a text gives no moment: the part that is wrong, and what was expected there. -/
structure MomentFault where
  part : Option String
  expected : Option String
  deriving DecidableEq, Repr

/-- The wording of a fault. -/
def MomentFault.message (f : MomentFault) : String :=
  "invalid " ++ f.part.getD "datetime" ++ ((f.expected.map (", expected " ++ ·)).getD "")

/-- A fault in a part, where something else was expected. -/
def wrong {α : Type} (part expected : String) : Except MomentFault α :=
  .error ⟨some part, some expected⟩

/-! ### Parts -/

/-- The digits that a text begins with, of which there is one at least. -/
def digitsAhead? (text : List Char) : Option (List Char × List Char) :=
  let digits := text.takeWhile Char.isDigit
  if digits.isEmpty then none else some (digits, text.drop digits.length)

/-- Reads a number of a part. -/
def readDigits (part expected : String) (text : List Char) :
    Except MomentFault (List Char × List Char) :=
  match digitsAhead? text with
  | some found => .ok found
  | none => wrong part expected

/-- Passes over a mark of a part. -/
def skipMark (mark : Char) (part expected : String) (text : List Char) :
    Except MomentFault (List Char) :=
  if text.head? = some mark then .ok text.tail else wrong part expected

/-- Refuses a part unless a condition holds. -/
def demand (condition : Bool) (part expected : String) : Except MomentFault Unit :=
  if condition then .ok () else wrong part expected

/-- Reads a date after its year. -/
def readDateAfter (year text : List Char) : Except MomentFault (List Char × List Char) := do
  let (month, text) ← readDigits "date" "month" text
  let text ← skipMark '-' "date" "`-` (MM-DD)" text
  let (day, text) ← readDigits "date" "day" text
  demand (year.length == 4) "date" "a four-digit year (YYYY)"
  demand (month.length == 2) "date" "a two-digit month (MM)"
  demand (day.length == 2) "date" "a two-digit day (DD)"
  let months := numberOf month
  demand (1 ≤ months && months ≤ 12) "date" "month between 01 and 12"
  let days := daysIn (numberOf year) months
  demand (1 ≤ numberOf day && numberOf day ≤ days) "date"
    ("day between 01 and " ++ toString days)
  .ok (year ++ '-' :: month ++ '-' :: day, text)

/-- Reads a time, with a part of a second if there is a point. -/
def readClock (text : List Char) : Except MomentFault (List Char × List Char) := do
  let (hour, text) ← readDigits "time" "hour" text
  let text ← skipMark ':' "time" "`:` (HH:MM)" text
  let (minute, text) ← readDigits "time" "minute" text
  let text ← skipMark ':' "time" "`:` (MM:SS)" text
  let (second, text) ← readDigits "time" "second" text
  let (part, text) ←
    match text with
    | '.' :: rest => readDigits "time" "nanosecond" rest
    | _ => .ok ([], text)
  demand (hour.length == 2) "time" "a two-digit hour (HH)"
  demand (minute.length == 2) "time" "a two-digit minute (MM)"
  demand (second.length == 2) "time" "a two-digit second (SS)"
  demand (numberOf hour ≤ 23) "time" "hour between 00 and 23"
  demand (numberOf minute ≤ 59) "time" "minute between 00 and 59"
  demand (numberOf second ≤ 60) "time" "second between 00 and 60"
  .ok (hour ++ ':' :: minute ++ ':' :: second ++ secondsPart part, text)

/-- Reads an offset, if something follows the time. -/
def readOffsetAfter (text : List Char) : Except MomentFault (List Char × List Char) :=
  match text with
  | [] => .ok ([], [])
  | c :: rest =>
    if c = 'Z' ∨ c = 'z' then .ok (['Z'], rest)
    else if c = '+' ∨ c = '-' then do
      let (hour, rest) ← readDigits "offset" "hour" rest
      let rest ← skipMark ':' "offset" "`:` (HH:MM)" rest
      let (minute, rest) ← readDigits "offset" "minute" rest
      demand (hour.length == 2) "offset" "a two-digit hour (HH)"
      demand (minute.length == 2) "offset" "a two-digit minute (MM)"
      demand (numberOf hour ≤ 23) "offset" "hours between 00 and 23"
      demand (numberOf minute ≤ 59) "offset" "minutes between 00 and 59"
      .ok (offsetChars c (numberOf hour) (numberOf minute) (hour ++ ':' :: minute), rest)
    else wrong "offset" "`Z`, +OFFSET, -OFFSET"

/-! ### Whole texts -/

/-- What follows a date: nothing, or a time and its offset. -/
def readAfterDate (date text : List Char) : Except MomentFault (List Char × List Char) :=
  match text with
  | [] => .ok (date, [])
  | c :: rest =>
    if c = 'T' ∨ c = 't' ∨ c = ' ' then do
      let (time, rest) ← readClock rest
      let (offset, rest) ← readOffsetAfter rest
      .ok (date ++ 'T' :: time ++ offset, rest)
    else wrong "date-time" "`T` between date and time"

/-- The moment that a text gives. -/
def momentOf (text : String) : Except MomentFault String := do
  let chars := text.toList
  let (moment, rest) ←
    match digitsAhead? chars with
    | none => .error ⟨none, some "year or hour"⟩
    | some (year, '-' :: rest) => do
      let (date, rest) ← readDateAfter year rest
      readAfterDate date rest
    | some (_, ':' :: _) => readClock chars
    | some _ => .error ⟨none, some "`-` (YYYY-MM) or `:` (HH:MM)"⟩
  if rest.isEmpty then .ok (String.ofList moment) else .error ⟨none, none⟩

end Keyring.Toml
