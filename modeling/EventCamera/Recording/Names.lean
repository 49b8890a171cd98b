import EventCamera.Sensor
import EventCamera.Time.Instant
/-!
# Names of recorded files

A recorded window is named by its number in the run and its start, a run by the second it began in,
a capture by the millisecond it was taken in. Numbers are padded so that names sort like what they
stand for.
-/

namespace EventCamera

/-- Date and time of day as `YYYYMMDD_HHMMSS`. -/
def Instant.compactText (i : Instant) : String :=
  let d := i.date
  yearText d.year ++ Decimal.padded 2 d.month ++ Decimal.padded 2 d.day ++ "_" ++
    Decimal.padded 2 i.hour ++ Decimal.padded 2 i.minute ++ Decimal.padded 2 i.second

/-- Name of the file that holds recorded window number `counter`. -/
def windowFileName (counter : UInt64) (start : Timestamp) : String :=
  "frame_" ++ Decimal.padded 6 counter.toNat ++ "_t0_" ++ Decimal.ofInt start.toInt ++ "us.txt"

/-- The number and the start that the name of a recorded window tells. -/
def readWindowFileName? (name : List Char) : Option (Nat × Int) := do
  let rest ← "frame_".toList.isPrefixOf? name
  let tail ← "_t0_".toList.isPrefixOf? (rest.dropWhile (· != '_'))
  let start ← "us.txt".toList.isSuffixOf? tail
  return (← Decimal.readNat? (rest.takeWhile (· != '_')), ← Decimal.readInt? start)

/-- Name of the directory of a run that began at the given time. -/
def runDirectoryName (began : Instant) : String := "run_" ++ began.compactText

/-- Name of the run directory that is tried after `k` others of the same second were taken. -/
def numberedRunName (began : Instant) : Nat → String
  | 0 => runDirectoryName began
  | k + 1 => runDirectoryName began ++ "_" ++ Decimal.ofNat (k + 1)

/-- Name of a capture taken at the given time. -/
def captureFileName (taken : Instant) : String :=
  "capture_" ++ taken.compactText ++ "_" ++ Decimal.padded 3 (taken.subsecond / 1000000) ++ ".pgm"

end EventCamera
