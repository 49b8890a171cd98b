import EventCamera.Bias.Change
import EventCamera.Bias.Step
import EventCamera.Camera.Source
import EventCamera.Console.Command
import EventCamera.Recording.Recorder
import EventCamera.Shared
import EventCamera.Text.Blank
/-!
# Command interpreter

Carries out the operator's commands on the shared state and the camera. A command either replies
with the lines to show or fails with a reason; a failed command leaves everything as it was, except
that an opened camera that does not start has ended the session before it.

The interpreter holds at most one open source, and holds one while acquisition is on.
-/

namespace EventCamera

/-- Why a command did nothing. -/
inductive CommandError where
  | acquisitionAlreadyOn
  | acquisitionAlreadyOff
  | recordingAlreadyOn
  | recordingAlreadyOff
  | acquisitionRequired
  | noBiasSelected
  | noFrame
  | source (e : SourceError)
  | bias (e : BiasError)
  | storage (e : StorageError)
  deriving DecidableEq, Repr

namespace CommandError

def message : CommandError → String
  | acquisitionAlreadyOn => "camera already ON"
  | acquisitionAlreadyOff => "camera already OFF"
  | recordingAlreadyOn => "recording already ON"
  | recordingAlreadyOff => "recording already OFF"
  | acquisitionRequired => "camera must be ON before using bias commands"
  | noBiasSelected => "no bias selected; use 'n <name>' to select one"
  | noFrame => "no frame available to capture"
  | source e => e.message
  | bias e => e.message
  | storage e => e.message

/-- Whether the error only tells that a command does not apply now. -/
def isNotice : CommandError → Bool
  | source _ | storage _ | bias (.writeFailed ..) => false
  | _ => true

end CommandError

/-- The state that only the interpreter uses; `δ` is the state of a bias facility. -/
structure Interpreter (δ : Type) where
  provider : Provider δ
  source : Option (Source δ)
  outputRoot : Path
  selected : Option String
  steps : StepSelector
  /-- Values written whenever a camera is opened. -/
  presets : List (String × BiasValue)
  /-- Whether the next camera with a facility is asked for its biases when it is opened. -/
  listOnOpen : Bool
  /-- The session that each opened source delivers for, in the order they were opened. -/
  subscriptions : List SessionId
  deriving Inhabited

namespace Interpreter

def new {δ : Type} (provider : Provider δ) (outputRoot : Path) : Interpreter δ where
  provider := provider
  source := none
  outputRoot := outputRoot
  selected := none
  steps := .standard
  presets := []
  listOnOpen := false
  subscriptions := []

end Interpreter

/-- The interpreter at work on the shared state. -/
structure Desk (δ : Type) where
  shared : Shared
  interpreter : Interpreter δ
  deriving Inhabited

/-- What a command gives: the lines to show, or why it did nothing. -/
abbrev Reply := Except CommandError (List String)

namespace Desk

variable {δ : Type}

def change (f : Shared → Shared) (d : Desk δ) : Desk δ := { d with shared := f d.shared }

def write (ws : List Control.Write) (d : Desk δ) : Desk δ := d.change (·.write ws)

def clearQueue (d : Desk δ) : Desk δ := d.change fun s => s.clearQueue.2

/-! ## The camera -/

/-- Writes the presets in order. A preset that fails is passed over. -/
def applyPresets [BiasFacility δ] : List (String × BiasValue) → δ → List String × δ
  | [], biases => ([], biases)
  | (name, value) :: rest, biases =>
    match BiasFacility.apply name value biases with
    | (.ok change, biases) =>
      match applyPresets rest biases with
      | (lines, biases) => (change.text :: lines, biases)
    | (.error _, biases) => applyPresets rest biases

/-- Prepares the biases of a source that was just opened: presets, then the listing if it is still
asked for. -/
def prepareBiases [BiasFacility δ] (i : Interpreter δ) (source : Source δ) :
    List String × Interpreter δ × Source δ :=
  match source.biases with
  | none => ([BiasError.unsupported.message], i, source)
  | some biases =>
    match applyPresets i.presets biases with
    | (lines, biases) =>
      (if i.listOnOpen then lines ++ BiasFacility.listing false biases else lines,
        { i with listOnOpen := false }, { source with biases := some biases })

def openedLine (g : Geometry) : String :=
  "Camera ON. Resolution: " ++ Decimal.ofNat g.width.toNat ++ "x" ++ Decimal.ofNat g.height.toNat

/-- Opens the first camera in a new session. -/
def acquisitionOn [BiasFacility δ] (d : Desk δ) : Reply × Desk δ :=
  if d.shared.control.acquisition then (.error .acquisitionAlreadyOn, d)
  else match d.interpreter.provider.openFirst with
    | (.error e, provider) =>
      (.error (.source e), { d with interpreter.provider := provider })
    | (.ok source, provider) =>
      let shared := d.shared.write (Control.acquisitionWrites source.geometry)
      let interpreter := { d.interpreter with
        provider, selected := none,
        subscriptions := d.interpreter.subscriptions ++ [shared.control.session] }
      match prepareBiases interpreter source with
      | (lines, interpreter, source) =>
        match source.start with
        | .error e =>
          (.error (.source e), ⟨shared.write [.acquisition false, .requestReset], interpreter⟩)
        | .ok source =>
          (.ok (lines ++ [openedLine source.geometry]),
            ⟨shared, { interpreter with source := some source }⟩)

/-- Closes the camera. The queue is cleared before the source is stopped, so that a delivery that
sleeps at the queue ends, and once more after it. -/
def acquisitionOff (d : Desk δ) : Reply × Desk δ :=
  if d.shared.control.acquisition then
    let d := (d.write [.acquisition false]).clearQueue
    let d := { d with interpreter.source := none }.clearQueue
    let d := { d with interpreter.selected := none }.write [.requestReset]
    (.ok ["Camera OFF."], d)
  else (.error .acquisitionAlreadyOff, d)

/-! ## Recording and captures -/

/-- Begins a recording in a fresh run directory. -/
def recordingStart (d : Desk δ) : Reply × Desk δ :=
  if d.shared.control.recording then (.error .recordingAlreadyOn, d)
  else match d.shared.clock.read with
    | (now, clock) =>
      match createRun d.interpreter.outputRoot now d.shared.files with
      | (.error e, files) => (.error (.storage e), d.change ({ · with clock, files }))
      | (.ok dir, files) =>
        (.ok ["Recording ON. Output dir: " ++ dir.text],
          (d.change ({ · with clock, files })).write (Control.recordingWrites dir))

def recordingStop (d : Desk δ) : Reply × Desk δ :=
  if d.shared.control.recording then (.ok ["Recording OFF."], d.write [.recording false])
  else (.error .recordingAlreadyOff, d)

def capture (d : Desk δ) : Reply × Desk δ :=
  match d.shared.latest with
  | none => (.error .noFrame, d)
  | some published =>
    match d.shared.clock.read with
    | (now, clock) =>
      match saveCapture d.interpreter.outputRoot published.frame now d.shared.files with
      | (.error e, files) => (.error (.storage e), d.change ({ · with clock, files }))
      | (.ok path, files) =>
        (.ok ["Captured image saved to: " ++ path.text], d.change ({ · with clock, files }))

/-! ## Biases -/

/-- The facility that bias commands use: that of the open source, while acquisition is on. -/
def facility (d : Desk δ) : Except CommandError δ :=
  if d.shared.control.acquisition then
    match d.interpreter.source.bind (·.biases) with
    | some biases => .ok biases
    | none => .error (.bias .unsupported)
  else .error .acquisitionRequired

/-- Puts the facility back after a write. -/
def putFacility (biases : δ) (d : Desk δ) : Desk δ :=
  { d with interpreter.source := d.interpreter.source.map ({ · with biases := some biases }) }

/-- Lists the biases, and selects the first if none is selected. -/
def listBiases [BiasFacility δ] (verbose : Bool) (d : Desk δ) : Reply × Desk δ :=
  match d.facility with
  | .error e => (.error e, d)
  | .ok biases =>
    let lines := BiasFacility.listing verbose biases
    match (BiasFacility.list biases).head? with
    | none => (.ok lines, d)
    | some (first, _) =>
      let selected := d.interpreter.selected.getD first
      let steps := d.interpreter.steps
      (.ok (lines ++ ["Selected bias: " ++ selected ++ " | step=" ++ steps.current.text ++
          " (" ++ steps.text ++ ")"]),
        { d with interpreter.selected := some selected })

def selectBias [BiasFacility δ] (name : String) (d : Desk δ) : Reply × Desk δ :=
  match d.facility with
  | .error e => (.error e, d)
  | .ok biases =>
    let name := String.ofList (trim name.toList)
    if name.isEmpty then (.ok ["Bias name not changed (empty input)."], d)
    else match BiasFacility.listed? biases name with
      | none => (.error (.bias (.unknown name)), d)
      | some _ =>
        (.ok ["Selected bias set to \"" ++ name ++ "\"."], { d with interpreter.selected := some name })

/-- Shows how a write ended, and puts the facility back. -/
def reportChange (result : Except BiasError BiasChange × δ) (d : Desk δ) : Reply × Desk δ :=
  match result with
  | (.ok change, biases) => (.ok [change.text], d.putFacility biases)
  | (.error e, biases) => (.error (.bias e), d.putFacility biases)

/-- Moves the selected bias by the chosen step, in the given direction. -/
def adjustSelected [BiasFacility δ] (direction : BiasValue) (d : Desk δ) : Reply × Desk δ :=
  match d.facility with
  | .error e => (.error e, d)
  | .ok biases =>
    match d.interpreter.selected with
    | none => (.error .noBiasSelected, d)
    | some name =>
      d.reportChange (BiasFacility.adjust name (direction * d.interpreter.steps.current) biases)

def setBias [BiasFacility δ] (name : String) (value : BiasValue) (d : Desk δ) : Reply × Desk δ :=
  match d.facility with
  | .error e => (.error e, d)
  | .ok biases => d.reportChange (BiasFacility.apply name value biases)

def showSelected [BiasFacility δ] (d : Desk δ) : Reply × Desk δ :=
  match d.facility with
  | .error e => (.error e, d)
  | .ok biases =>
    match d.interpreter.selected with
    | none => (.error .noBiasSelected, d)
    | some name =>
      match BiasFacility.listed? biases name with
      | none => (.error (.bias (.unknown name)), d)
      | some value =>
        (.ok ["Selected bias: " ++ name ++ " = " ++ value.text ++ " | step=" ++
          d.interpreter.steps.current.text], d)

def moveStep (move : StepSelector → StepSelector) (d : Desk δ) : Reply × Desk δ :=
  let steps := move d.interpreter.steps
  (.ok ["Bias step set to " ++ steps.current.text], { d with interpreter.steps := steps })

/-! ## All commands -/

def handle [BiasFacility δ] (command : Command) (d : Desk δ) : Reply × Desk δ :=
  match command with
  | .acquisitionOn => d.acquisitionOn
  | .acquisitionOff => d.acquisitionOff
  | .recordingStart => d.recordingStart
  | .recordingStop => d.recordingStop
  | .quit => (.ok ["Exit requested."], d.write [.shutdown])
  | .listBiases => d.listBiases false
  | .describeBiases => d.listBiases true
  | .selectBias name => d.selectBias name
  | .raiseBias => d.adjustSelected 1
  | .lowerBias => d.adjustSelected (-1)
  | .stepUp => d.moveStep .up
  | .stepDown => d.moveStep .down
  | .showSelected => d.showSelected
  | .setBias name value => d.setBias name value
  | .capture => d.capture
  | .help => (.ok [Command.helpText], d)

/-- Requests shutdown, ends acquisition and lets the source go. -/
def shutdown (d : Desk δ) : Desk δ :=
  { d.write [.shutdown, .acquisition false] with interpreter.source := none }

end Desk

end EventCamera
