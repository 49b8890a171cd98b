import EventCamera.Bias.Range
/-!
# Commands

What the operator can ask for, and the keys that ask for it.
-/

namespace EventCamera

/-- A command of the operator. -/
inductive Command where
  | acquisitionOn
  | acquisitionOff
  | recordingStart
  | recordingStop
  | quit
  | listBiases
  | describeBiases
  | selectBias (name : String)
  | raiseBias
  | lowerBias
  | stepUp
  | stepDown
  | showSelected
  | setBias (name : String) (value : BiasValue)
  | capture
  | help
  deriving DecidableEq, Repr, Inhabited

namespace Command

/-- The command of a key. Selecting and setting a bias take a name and have no key. -/
def ofKey? : Char → Option Command
  | 'o' | 'O' => some acquisitionOn
  | 'f' | 'F' => some acquisitionOff
  | 's' | 'S' => some recordingStart
  | 'e' | 'E' => some recordingStop
  | 'q' | 'Q' => some quit
  | 'b' => some listBiases
  | 'B' => some describeBiases
  | '+' => some raiseBias
  | '-' => some lowerBias
  | ']' => some stepUp
  | '[' => some stepDown
  | 'p' | 'P' => some showSelected
  | 'c' | 'C' => some capture
  | 'h' | 'H' | '?' => some help
  | _ => none

/-- The name of the command in logs. -/
def label : Command → String
  | acquisitionOn => "AcquisitionOn"
  | acquisitionOff => "AcquisitionOff"
  | recordingStart => "RecordingStart"
  | recordingStop => "RecordingStop"
  | quit => "Quit"
  | listBiases => "BiasList"
  | describeBiases => "BiasListVerbose"
  | selectBias name => "BiasSelect(" ++ name ++ ")"
  | raiseBias => "BiasIncrement"
  | lowerBias => "BiasDecrement"
  | stepUp => "BiasStepUp"
  | stepDown => "BiasStepDown"
  | showSelected => "BiasPrintSelected"
  | setBias name value => "BiasSet(" ++ name ++ "=" ++ value.text ++ ")"
  | capture => "CaptureFrame"
  | help => "Help"

/-- The line that lists every key. -/
def helpText : String :=
  "Commands: o(Camera ON), f(Camera OFF), s(Record START), e(Record END), " ++
  "b(List biases), B(Verbose bias info), n <name>(Select bias), n <name>=<value>(Set bias), " ++
  "+/-(Bias +/-), [ ](Step), p(Print selection), c(Capture frame), h(Help), q(Quit)"

end Command

end EventCamera
