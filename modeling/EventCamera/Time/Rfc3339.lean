import EventCamera.Text.Blank
import EventCamera.Time.Instant
/-!
# Instants as text

The written form is that of RFC 3339 in UTC, with as many groups of three fraction digits as needed.
The reader is more lenient: fields may have fewer digits, blanks may stand before numbers and
separators, and any offset of less than a day is taken off.
-/

namespace EventCamera

namespace Instant

/-- Digits after the point: none, three, six or nine. -/
def fractionText (nanos : Nat) : String :=
  if nanos = 0 then ""
  else if nanos % 1000000 = 0 then "." ++ Decimal.padded 3 (nanos / 1000000)
  else if nanos % 1000 = 0 then "." ++ Decimal.padded 6 (nanos / 1000)
  else "." ++ Decimal.padded 9 nanos

def text (i : Instant) : String :=
  let d := i.date
  yearText d.year ++ "-" ++ Decimal.padded 2 d.month ++ "-" ++ Decimal.padded 2 d.day ++ "T" ++
    Decimal.padded 2 i.hour ++ ":" ++ Decimal.padded 2 i.minute ++ ":" ++ Decimal.padded 2 i.second ++
    fractionText i.subsecond ++ "Z"

/-! ## Reading -/

/-- Reads at least one and at most `most` digits. -/
def readDigits (most : Nat) (cs : List Char) : Option (Nat × List Char) :=
  let ds := (cs.take most).takeWhile Char.isDigit
  if ds.isEmpty then none else some (Nat.ofDigitChars 10 ds 0, cs.drop ds.length)

/-- Reads a number of at most two digits after blanks. -/
def readField (cs : List Char) : Option (Nat × List Char) := readDigits 2 (trimLeft cs)

/-- Reads a year after blanks: four digits at most, or any number of digits after a sign. -/
def readYear (cs : List Char) : Option (Int × List Char) :=
  match trimLeft cs with
  | '-' :: rest => (readDigits rest.length rest).map fun (n, rest) => (-(n : Int), rest)
  | '+' :: rest => (readDigits rest.length rest).map fun (n, rest) => ((n : Int), rest)
  | rest => (readDigits 4 rest).map fun (n, rest) => ((n : Int), rest)

def skipSeparator (c : Char) (cs : List Char) : Option (List Char) :=
  match trimLeft cs with
  | d :: rest => if d = c then some rest else none
  | [] => none

def skipDateEnd : List Char → Option (List Char)
  | 'T' :: rest | 't' :: rest | ' ' :: rest => some rest
  | _ => none

/-- Reads a fraction of a second in nanoseconds, if there is one. Digits after the ninth are
skipped. -/
def readFraction : List Char → Option (Nat × List Char)
  | '.' :: cs =>
    (readDigits 9 cs).map fun (n, rest) =>
      (n * Nat.pow 10 (9 - (cs.length - rest.length)), rest.dropWhile Char.isDigit)
  | cs => some (0, cs)

/-- Reads an offset from UTC in minutes: `Z`, `UTC`, or a sign, two digits for the hours and two for
the minutes. -/
def readOffset (cs : List Char) : Option (Int × List Char) :=
  if (cs.take 3).map Char.toUpper = ['U', 'T', 'C'] then some (0, cs.drop 3)
  else match cs with
    | 'Z' :: rest | 'z' :: rest => some (0, rest)
    | sign :: h₁ :: h₂ :: rest =>
      match rest.dropWhile fun c => c == ':' || isBlank c with
      | m₁ :: m₂ :: rest =>
        if (sign = '+' ∨ sign = '-' ∨ sign = '−') ∧ [h₁, h₂, m₁, m₂].all Char.isDigit ∧ m₁ < '6' then
          let minutes : Nat := Nat.ofDigitChars 10 [h₁, h₂] 0 * 60 + Nat.ofDigitChars 10 [m₁, m₂] 0
          some (if sign = '+' then minutes else -(minutes : Int), rest)
        else none
      | _ => none
    | _ => none

/-- Date and time of day as written, with the offset they are written in. -/
structure Reading where
  date : Calendar.Date
  hour : Nat
  minute : Nat
  second : Nat
  nanos : Nat
  offset : Int

/-- The instant that was read. Second 60 is a leap second after second 59. -/
def Reading.instant? (r : Reading) : Option Instant :=
  match r.date.day? with
  | none => none
  | some day =>
    let days := day - Calendar.unixDay
    if r.hour < 24 ∧ r.minute < 60 ∧ r.second ≤ 60 ∧ r.offset.natAbs < 1440 ∧
        earliest ≤ days * 86400 ∧ days * 86400 ≤ latest then
      let leap := r.second = 60
      ofUnix? (days * 86400 + r.hour * 3600 + r.minute * 60 + (if leap then 59 else r.second) - r.offset * 60)
        (if leap then r.nanos + 1000000000 else r.nanos)
    else none

def read? (s : String) : Option Instant := do
  let (year, cs) ← readYear s.toList
  let cs ← skipSeparator '-' cs
  let (month, cs) ← readField cs
  let cs ← skipSeparator '-' cs
  let (day, cs) ← readField cs
  let cs ← skipDateEnd cs
  let (hour, cs) ← readField cs
  let cs ← skipSeparator ':' cs
  let (minute, cs) ← readField cs
  let cs ← skipSeparator ':' cs
  let (second, cs) ← readField cs
  let (nanos, cs) ← readFraction cs
  let (offset, cs) ← readOffset (trimLeft cs)
  if (trimLeft cs).isEmpty then
    Reading.instant? ⟨⟨year, month, day⟩, hour, minute, second, nanos, offset⟩
  else none

end Instant

end EventCamera
