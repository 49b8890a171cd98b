import EventCamera.Text.Decimal
import EventCamera.Time.Calendar
/-!
# Instants

An instant counts seconds since the start of 1970 and nanoseconds within the second. A leap second
is written as a nanosecond count past one second, and can only follow the last second of a minute.
Years run from -262143 to 262142. All clock faces show UTC.
-/

namespace EventCamera

/-- First second that can be told. -/
def Instant.earliest : Int := (Calendar.daysBeforeYear (-262143) - Calendar.unixDay) * 86400

/-- Last second that can be told. -/
def Instant.latest : Int := (Calendar.daysBeforeYear 262143 - Calendar.unixDay) * 86400 - 1

structure Instant where
  seconds : Int
  nanos : Nat
  earliest_le : Instant.earliest ≤ seconds
  le_latest : seconds ≤ Instant.latest
  nanos_lt : nanos < 1000000000 ∨ nanos < 2000000000 ∧ seconds % 60 = 59
  deriving DecidableEq

namespace Instant

/-- The instant with the given count of seconds and nanoseconds, if it can be told. -/
def ofUnix? (seconds : Int) (nanos : Nat) : Option Instant :=
  if h : (earliest ≤ seconds ∧ seconds ≤ latest) ∧
      (nanos < 1000000000 ∨ nanos < 2000000000 ∧ seconds % 60 = 59) then
    some ⟨seconds, nanos, h.1.1, h.1.2, h.2⟩
  else none

def epoch : Instant := ⟨0, 0, by decide, by decide, by decide⟩

instance : Inhabited Instant := ⟨epoch⟩

def date (i : Instant) : Calendar.Date := .ofDay (i.seconds / 86400 + Calendar.unixDay)

def secondOfDay (i : Instant) : Nat := (i.seconds % 86400).toNat

def hour (i : Instant) : Nat := i.secondOfDay / 3600

def minute (i : Instant) : Nat := i.secondOfDay / 60 % 60

/-- Second of the minute; a leap second is number 60. -/
def second (i : Instant) : Nat := i.secondOfDay % 60 + i.nanos / 1000000000

def subsecond (i : Instant) : Nat := i.nanos % 1000000000

end Instant

/-- Text of a year: four digits at least, with a sign outside 0 to 9999. -/
def yearText (year : Int) : String :=
  if year < 0 then "-" ++ Decimal.padded 4 year.natAbs
  else if year ≤ 9999 then Decimal.padded 4 year.natAbs
  else "+" ++ Decimal.padded 4 year.natAbs

end EventCamera
