import EventCamera.Bias.Step
import EventCamera.Files.Tree
import EventCamera.Handoff.Queue
import EventCamera.Json.SensorData
import EventCamera.Window
/-!
# Settings

What the program can be told by a settings file. Every field may be missing from the file and then
keeps its usual value; the result is checked as a whole. Saved settings are read back as they were.
-/

namespace EventCamera

open Stored

structure Settings where
  /-- Length of a window in microseconds. -/
  windowMicros : Int64
  /-- Places in the handoff queue. -/
  queueCapacity : UInt64
  /-- Where runs and captures go. -/
  outputRoot : Path
  /-- Milliseconds between two refreshes of the display. -/
  displayInterval : UInt64
  /-- Steps on offer for biases. -/
  biasSteps : List BiasValue
  synthetic : SyntheticSettings
  /-- Where the counters are saved at the end. -/
  statsPath : Option Path
  deriving DecidableEq, Repr

inductive SettingsError where
  | file (cause : FileError)
  | notText
  | malformed
  | windowLength (micros : Int64)
  | noQueue
  | noSteps
  deriving DecidableEq, Repr

def SettingsError.message : SettingsError → String
  | file cause => "IO error: " ++ cause.message
  | notText => "IO error: stream did not contain valid UTF-8"
  | malformed => "Parse error: not a settings file"
  | windowLength micros =>
    "Invalid configuration: window_duration_us must be in 1..=3600000000, got " ++ Decimal.ofInt micros.toInt
  | noQueue => "Invalid configuration: max_queue_size must be at least 1"
  | noSteps => "Invalid configuration: bias_steps must not be empty"

namespace Settings

def standard : Settings where
  windowMicros := WindowLength.standard.micros
  queueCapacity := 200
  outputRoot := ⟨"output"⟩
  displayInterval := 1
  biasSteps := StepSelector.standardSteps
  synthetic := .standard
  statsPath := none

instance : Inhabited Settings := ⟨standard⟩

/-- Whether the program can run with the settings. -/
def check (s : Settings) : Except SettingsError Unit :=
  if s.windowMicros < 1 || WindowLength.hour < s.windowMicros then .error (.windowLength s.windowMicros)
  else if s.queueCapacity == 0 then .error .noQueue
  else if s.biasSteps.isEmpty then .error .noSteps
  else .ok ()

instance : Stored Settings where
  store s := .object [("window_duration_us", store s.windowMicros), ("max_queue_size", store s.queueCapacity),
    ("output_root", store s.outputRoot), ("display_interval", store s.displayInterval),
    ("bias_steps", store s.biasSteps), ("synthetic", store s.synthetic), ("stats_path", store s.statsPath)]
  load? v :=
    match fields? ["window_duration_us", "max_queue_size", "output_root", "display_interval", "bias_steps",
      "synthetic", "stats_path"] v with
    | some [windowMicros, queueCapacity, outputRoot, displayInterval, biasSteps, synthetic, statsPath] =>
      let d := standard
      do some ⟨← optional d.windowMicros windowMicros, ← optional d.queueCapacity queueCapacity,
        ← optional d.outputRoot outputRoot, ← optional d.displayInterval displayInterval,
        ← optional d.biasSteps biasSteps, ← optional d.synthetic synthetic, ← optional d.statsPath statsPath⟩
    | _ => none

/-- The settings that a text stands for, if the program can run with them. -/
def ofText (text : String) : Except SettingsError Settings :=
  match Stored.read? Settings text with
  | none => .error .malformed
  | some s =>
    match s.check with
    | .error e => .error e
    | .ok () => .ok s

def loadFrom (tree : FileTree) (p : Path) : Except SettingsError Settings :=
  match tree.contentOf p with
  | .error e => .error (.file e)
  | .ok bytes =>
    match bytes.text? with
    | none => .error .notText
    | some text => ofText text

/-- Saves the settings, after the directories that lead to the file. -/
def save (s : Settings) (p : Path) (tree : FileTree) : Except SettingsError Unit × FileTree :=
  match tree.writeWithParents p (Bytes.ofText (Stored.pretty s)) with
  | (.ok (), tree) => (.ok (), tree)
  | (.error e, tree) => (.error (.file e), tree)

/-- Where the settings file of a user is, given the directory for such files. -/
def usualPath (configRoot : Path) : Path := (configRoot.child "evs-window-logger").child "config.json"

/-- Loads the settings file of a user, or the usual settings if there is none. -/
def loadUsual (tree : FileTree) (configRoot : Path) : Except SettingsError Settings :=
  if tree.contains (usualPath configRoot) then loadFrom tree (usualPath configRoot) else .ok standard

end Settings

end EventCamera
