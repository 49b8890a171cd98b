/-!
# The calendar

Days are counted from 1 January of year 1 in the proleptic Gregorian calendar. `daysBeforeYear` is the
day number on which a year starts, and `yearOfDay` finds the year a day lies in.
-/

namespace EventCamera.Calendar

/-- Day number of the first of January. -/
def daysBeforeYear (year : Int) : Int :=
  let p := year - 1
  365 * p + p / 4 - p / 100 + p / 400

/-- The year that a day lies in: the mean length of a year gives it up to one year. -/
def yearOfDay (day : Int) : Int :=
  let guess := day * 400 / 146097 + 1
  if day < daysBeforeYear guess then guess - 1
  else if daysBeforeYear (guess + 1) ≤ day then guess + 1
  else guess

theorem daysBeforeYear_yearOfDay_le (day : Int) : daysBeforeYear (yearOfDay day) ≤ day := by
  unfold yearOfDay daysBeforeYear
  dsimp only
  split
  · omega
  · split <;> omega

theorem lt_daysBeforeYear_yearOfDay (day : Int) : day < daysBeforeYear (yearOfDay day + 1) := by
  unfold yearOfDay daysBeforeYear
  dsimp only
  split
  · omega
  · split <;> omega

def isLeap (year : Int) : Bool := year % 4 == 0 && (year % 100 != 0 || year % 400 == 0)

def monthLengths (year : Int) : List Nat :=
  [31, if isLeap year then 29 else 28, 31, 30, 31, 30, 31, 31, 30, 31, 30, 31]

/-- Goes over the months until the day lies in one; `month` is the number of the first of them. -/
def splitMonth : List Nat → Nat → Nat → Nat × Nat
  | [], month, day => (month, day)
  | length :: rest, month, day =>
    if day < length then (month, day) else splitMonth rest (month + 1) (day - length)

/-- A day of the calendar; months and days count from one. -/
structure Date where
  year : Int
  month : Nat
  day : Nat
  deriving DecidableEq, Repr, Inhabited

def Date.ofDay (day : Int) : Date :=
  let year := yearOfDay day
  let (month, rest) := splitMonth (monthLengths year) 1 (day - daysBeforeYear year).toNat
  ⟨year, month, rest + 1⟩

/-- The day number of a date, if the calendar has that date. -/
def Date.day? (d : Date) : Option Int :=
  if d.month == 0 || d.day == 0 then none
  else
    match (monthLengths d.year)[d.month - 1]? with
    | none => none
    | some length =>
      let before := ((monthLengths d.year).take (d.month - 1)).foldl (· + ·) 0
      if length < d.day then none else some (daysBeforeYear d.year + (before + (d.day - 1) : Nat))

/-- Day number of 1 January 1970. -/
def unixDay : Int := daysBeforeYear 1970

end EventCamera.Calendar
