import EventCamera.Camera.Synthetic
import EventCamera.CommandLine
import EventCamera.Json.CounterData
import EventCamera.Session
/-!
# The program

One run of the program: the command line and the settings, the lines shown before the console starts,
the console over the lines typed, and the summary at the end.
-/

namespace EventCamera

def version : String := "0.1.0"

/-- How a run ended: the exit code, the lines shown, and the shared state. -/
structure RunResult where
  code : Nat
  shown : List String
  shared : Shared
  deriving Inhabited

namespace Program

def banner (s : Settings) : List String :=
  ["EVS Window Logger v" ++ version, "",
    "  Window duration: " ++ Decimal.ofInt s.windowMicros.toInt ++ " us",
    "  Queue capacity: " ++ Decimal.ofNat s.queueCapacity.toNat ++ " batches",
    "  Output root: " ++ s.outputRoot.text, "",
    Command.helpText, ""]

/-- The state in which the console starts. -/
def session (o : Options) (s : Settings) (files : FileTree) (clock : Clock) : Session MemoryBiases :=
  let interpreter := { Interpreter.new (Synthetic.provider s.synthetic) s.outputRoot with
    steps := .ofList s.biasSteps, presets := o.presets, listOnOpen := o.printBias }
  .start (.clamp s.windowMicros) ⟨{ Shared.initial s.queueCapacity.toNat with files, clock }, interpreter⟩

/-- Opens a camera before the first line if the options ask for it. A failure is passed over. -/
def openAtOnce (o : Options) (s : Session MemoryBiases) : List String × Session MemoryBiases :=
  if o.wantsCamera then
    match s.console.desk.acquisitionOn with
    | (reply, desk) => (reply.toOption.getD [], { s with console := { s.console with desk } })
  else ([], s)

/-- Whole seconds from one reading of the clock to a later one. -/
def secondsBetween (started now : Instant) : UInt64 :=
  let nanos := (now.seconds - started.seconds) * 1000000000 + ((now.nanos : Int) - started.nanos)
  (nanos.tdiv 1000000000).toNat.toUInt64

def snapshot (started : Instant) (s : Shared) : CounterSnapshot × Shared :=
  match s.clock.read with
  | (now, clock) => (⟨s.counters, started, secondsBetween started now⟩, { s with clock })

/-- Shows the summary and saves the counters if there is a place for them. -/
def finish (settings : Settings) (started : Instant) (s : Shared) : List String × Shared :=
  match snapshot started s with
  | (shot, s) =>
    let lines := "" :: shot.counters.summary (Decimal.ofNat shot.seconds.toNat)
    match settings.statsPath with
    | none => (lines, s)
    | some p =>
      match snapshot started s with
      | (shot, s) => (lines, { s with files := (shot.save p s.files).2 })

/-- What the arguments lead to. -/
inductive Opening where
  /-- Lines are shown, and that is all. -/
  | shows (lines : List String)
  | refuses (code : Nat) (reason : String)
  | starts (options : Options) (settings : Settings)

def opening (args : List String) (configRoot : Path) (files : FileTree) : Opening :=
  match Options.read args with
  | .error .help => .shows Options.help
  | .error .version => .shows ["evs-logger " ++ version]
  | .error .wrong => .refuses 2 "error: the arguments make no sense; try '--help'"
  | .ok o =>
    match o.settings files configRoot with
    | .error e => .refuses 1 ("Error: " ++ e.message)
    | .ok settings =>
      if o.showConfig then .shows [Stored.pretty settings]
      else if o.listSources then .shows (Synthetic.provider settings.synthetic).devices
      else .starts o settings

/-- A run over the given arguments and console lines. -/
def run (args lines : List String) (configRoot : Path) (files : FileTree) (clock : Clock) : RunResult :=
  match opening args configRoot files with
  | .shows shown => ⟨0, shown, { Shared.initial 1 with files, clock }⟩
  | .refuses code _ => ⟨code, [], { Shared.initial 1 with files, clock }⟩
  | .starts o settings =>
    match clock.read with
    | (started, clock) =>
      match openAtOnce o (session o settings files clock) with
      | (opened, s) =>
        match s.console.run lines with
        | (replies, console) =>
          match finish settings started console.desk.shared with
          | (summary, shared) => ⟨0, banner settings ++ opened ++ replies ++ summary, shared⟩

end Program

end EventCamera
