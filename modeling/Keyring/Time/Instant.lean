import Keyring.Time.Calendar

/-!
# `Keyring.Time.Instant`: points in time

A point in time is a day, a second of that day and nanoseconds. A leap second
is held as nanoseconds of a thousand million and more after the second before
it. Nothing in this form ties a leap second to the end of a minute, so it may
stand after any second of the day; `LeapLast` says that it stands where leap
seconds do.

A `ClockTime` is a point in time that a clock or a text can give. Both come
from `ofParts?`, which takes a leap second only after second 59 of a minute. A
clock gives none at all: it counts nanoseconds below a thousand million.
-/

set_option autoImplicit false

namespace Keyring

/-- A point in time, in UTC. -/
structure Instant where
  day : Int
  second : Nat
  nanos : Nat
  minDay_le : Calendar.minDay ≤ day
  le_maxDay : day ≤ Calendar.maxDay
  second_lt : second < 86400
  nanos_lt : nanos < 2000000000
  deriving DecidableEq, Repr

namespace Instant

/-- A leap second, if this is one, follows the last second of a minute. -/
def LeapLast (t : Instant) : Prop := 1000000000 ≤ t.nanos → t.second % 60 = 59

instance (t : Instant) : Decidable t.LeapLast :=
  inferInstanceAs (Decidable (1000000000 ≤ t.nanos → t.second % 60 = 59))

/-- The whole seconds since 1970. -/
def unixSeconds (t : Instant) : Int := t.day * 86400 + t.second

/-- The start of 1970. -/
def epoch : Instant := ⟨0, 0, 0, by decide, by decide, by decide, by decide⟩

end Instant

/-- A point in time that a clock or a text can give. -/
structure ClockTime extends Instant where
  leapLast : toInstant.LeapLast
  deriving DecidableEq, Repr

namespace ClockTime

instance : Coe ClockTime Instant := ⟨toInstant⟩

/-- The time of these parts, if they are in range. -/
def ofParts? (day : Int) (second nanos : Nat) : Option ClockTime :=
  if h : Calendar.minDay ≤ day ∧ day ≤ Calendar.maxDay ∧ second < 86400 ∧ nanos < 2000000000 ∧
      (1000000000 ≤ nanos → second % 60 = 59) then
    some ⟨⟨day, second, nanos, h.1, h.2.1, h.2.2.1, h.2.2.2.1⟩, h.2.2.2.2⟩
  else none

/-- The time of a number of seconds since 1970 and nanoseconds. -/
def ofUnix? (seconds : Int) (nanos : Nat) : Option ClockTime :=
  ofParts? (seconds / 86400) (seconds % 86400).toNat nanos

/-- The start of 1970. -/
def epoch : ClockTime := ⟨.epoch, by decide⟩

end ClockTime
end Keyring
