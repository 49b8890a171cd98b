import EventCamera.Console.Command
import EventCamera.Text.Blank
/-!
# Console lines

A line is either a bias line, `n` with a name or with `name=value`, or a row of keys. A lone `n` asks
for the name, which is then read from the next line. Blanks around a line mean nothing, unknown keys
are ignored, and so is a bias line whose value is no number.
-/

namespace EventCamera

inductive LineInput where
  /-- Commands in the order they were typed. -/
  | commands (cs : List Command)
  /-- The next line is a bias name. -/
  | awaitName
  | nothing
  deriving DecidableEq, Repr, Inhabited

/-- Whether the next line is read as a bias name. -/
structure LineReader where
  awaitingName : Bool
  deriving DecidableEq, Repr, Inhabited

/-- A value typed for a bias: one optional sign and digits, within the value type. -/
def readBiasValue? (cs : List Char) : Option BiasValue :=
  (Decimal.readInt? cs).bind fun i =>
    if Int32.minValue.toInt ≤ i ∧ i ≤ Int32.maxValue.toInt then some (Int32.ofInt i) else none

/-- A name selects a bias, a name with `=` and a value sets it. -/
def readBiasLine (cs : List Char) : LineInput :=
  match cs.dropWhile (· != '=') with
  | [] => .commands [.selectBias (String.ofList cs)]
  | _ :: value =>
    let name := trim (cs.takeWhile (· != '='))
    match readBiasValue? (trim value) with
    | some v => if name.isEmpty then .nothing else .commands [.setBias (String.ofList name) v]
    | none => .nothing

def readKeys (cs : List Char) : LineInput :=
  match cs.filterMap Command.ofKey? with
  | [] => .nothing
  | commands => .commands commands

namespace LineReader

def new : LineReader := ⟨false⟩

/-- Reads one line without blanks around it. -/
def readTrimmed (r : LineReader) (line : List Char) : LineInput × LineReader :=
  if r.awaitingName then (if line.isEmpty then .nothing else readBiasLine line, ⟨false⟩)
  else
    match line with
    | 'n' :: rest | 'N' :: rest =>
      let name := trim rest
      if name.isEmpty then (.awaitName, ⟨true⟩)
      else if (rest.head?.map isBlank).getD false then (readBiasLine name, ⟨false⟩)
      else (readKeys line, ⟨false⟩)
    | _ => (readKeys line, ⟨false⟩)

def read (r : LineReader) (line : String) : LineInput × LineReader := r.readTrimmed (trim line.toList)

end LineReader

end EventCamera
