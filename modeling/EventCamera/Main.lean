import EventCamera.Camera.Noise
import EventCamera.Program
import Std.Time.DateTime.Timestamp
/-!
# Command line

The program on a real machine: lines from the terminal, the camera's batches when they are due, the
time of day, and the disk. Everything is decided elsewhere. Before a step the part of the disk that it
may touch is looked at, and after it the disk is brought in line with the files of the session.
-/

namespace EventCamera

namespace Machine

def display (lines : List String) : IO Unit := do
  let out ← IO.getStdout
  for line in lines do out.putStrLn line
  out.flush

def clock : IO Clock := do
  let now ← Std.Time.Timestamp.now
  return .still ((Instant.ofUnix? now.val.second.val now.val.nano.val.toNat).getD default)

/-! ## The disk -/

def diskPath (loc : Location) : String := "/" ++ "/".intercalate loc

/-- The locations on the way to a path, the one it leads to last. -/
def wayTo (tree : FileTree) (p : Path) : List Location :=
  let start := if p.isAbsolute then [] else tree.workingDirectory
  let step (way : List Location) (name : String) : List Location :=
    let loc := way.getLastD []
    way ++ [if name == ".." then loc.dropLast else loc ++ [name]]
  p.names.foldl step ((List.range start.length).map fun n => start.take (n + 1))

/-- Looks whether a location holds a directory, a file or nothing. What a file holds is not read. -/
def look (tree : FileTree) (loc : Location) : IO FileTree := do
  let place := (← IO.currentDir) / diskPath loc
  if ← place.isDir then return tree.put loc .directory
  else if ← place.pathExists then return tree.put loc (.file [])
  else return tree.erase loc

/-- Looks at everything on the way to a path. -/
def lookAlong (tree : FileTree) (p : Path) : IO FileTree := (wayTo tree p).foldlM look tree

def lookInside (tree : FileTree) (p : Path) : IO FileTree := do
  let tree ← lookAlong tree p
  match tree.locate p with
  | .error _ => return tree
  | .ok loc =>
    if tree.lookup loc != some .directory then return tree
    let place := (← IO.currentDir) / diskPath loc
    (← place.readDir).foldlM (fun tree entry => look tree (loc ++ [entry.fileName])) tree

def lookInto (tree : FileTree) (p : Path) : IO FileTree := do
  let tree ← lookAlong tree p
  match tree.locate p, tree.entry? p with
  | .ok loc, some (.file _) => return tree.put loc (.file (← IO.FS.readBinFile (diskPath loc)).data.toList)
  | _, _ => return tree

/-- The tree of which nothing is known but where relative paths start. -/
def unknown : IO FileTree := do
  return ⟨[], (Path.names ⟨(← IO.currentDir).toString⟩)⟩

/-- Looks at the place that recorded windows go to. -/
def surveyRun (s : Shared) : IO FileTree := do
  s.control.recordingDir.toList.foldlM lookAlong (← unknown)

/-- Looks at the places that recordings, captures and counters go to. -/
def survey (settings : Settings) (s : Shared) : IO FileTree := do
  let tree ← lookInside (← surveyRun s) settings.outputRoot
  let tree ← lookInside tree (capturesDirectory settings.outputRoot)
  settings.statsPath.toList.foldlM lookAlong tree

/-- Brings the disk in line with the tree. A file appears under its name only when it is complete. -/
def store (before after : FileTree) : IO Unit := do
  for (loc, entry) in after.entries.reverse do
    if before.lookup loc != some entry then
      match entry with
      | .directory => IO.FS.createDir (diskPath loc)
      | .file content =>
        IO.FS.writeBinFile (diskPath loc ++ ".part") ⟨content.toArray⟩
        IO.FS.rename (diskPath loc ++ ".part") (diskPath loc)
  for (loc, _) in before.entries do
    if (after.lookup loc).isNone then IO.FS.removeFile (diskPath loc)

/-- Takes a step of the session on what the disk and the clock show now. -/
def take {α : Type} (survey : Shared → IO FileTree)
    (step : Session MemoryBiases → α × Session MemoryBiases) (s : Session MemoryBiases) :
    IO (α × Session MemoryBiases) := do
  let files ← survey s.shared
  let clock ← clock
  let (answer, s) := step (s.setShared { s.shared with files, clock })
  try store files s.shared.files
  catch e => IO.eprintln ("Warning: " ++ toString e)
  return (answer, s)

/-! ## The camera -/

/-- The camera at work: which opening it belongs to, when its next batch is due, and its sweep. -/
structure Camera where
  opening : Nat
  due : Nat
  sweep : Synthetic.Sweep

/-- Delivers the next batch if the camera runs and the batch is due, and lets the engine work on it.
Tells whether there was one; a camera that is late makes up for it. -/
def deliverDue (settings : Settings) (camera : Camera) (s : Session MemoryBiases) :
    IO (Bool × Camera × Session MemoryBiases) := do
  let now ← IO.monoNanosNow
  let opening := s.interpreter.subscriptions.length
  let camera := if camera.opening == opening then camera else ⟨opening, now, .new settings.synthetic⟩
  let runs := s.interpreter.source.any (·.running) && !settings.synthetic.geometry.isEmpty
  if !runs || now < camera.due then return (false, camera, s)
  let (events, sweep) := camera.sweep.next settings.synthetic
  let (_, s) ← take surveyRun (fun s => ((), (s.deliver none events).2.drain.2)) s
  return (true, ⟨opening, camera.due + settings.synthetic.span.toNat * 1000, sweep⟩, s)

/-! ## The console -/

/-- Reads one line from the terminal; `none` at its end. -/
def readLine : IO (Option String) := do
  let line ← (← IO.getStdin).getLine
  return if line.isEmpty then none else some line

/-- Milliseconds to rest when there is nothing to do. -/
def rest (settings : Settings) : UInt32 := (min settings.displayInterval.toNat 10).toUInt32

/-- Carries out lines and delivers batches until shutdown is requested. When the terminal is closed the
camera goes on. -/
def converse (settings : Settings) (started : Session MemoryBiases) : IO (Session MemoryBiases) := do
  let mut s := started
  let mut camera : Camera := ⟨0, 0, .new settings.synthetic⟩
  let mut reading ← some <$> IO.asTask readLine .dedicated
  while s.shared.control.running do
    let mut idle := true
    if let some task := reading then
      if ← IO.hasFinished task then
        idle := false
        reading := none
        if let .ok (some line) := task.get then
          let (lines, next) ← take (survey settings) (·.handleLine line) s
          s := next
          display lines
          if s.shared.control.running then reading ← some <$> IO.asTask readLine .dedicated
    let (delivered, next) ← deliverDue settings camera s
    (camera, s) := next
    s := s.refresh.2
    if idle && !delivered then IO.sleep (rest settings)
  return s.leave

/-- The directory for settings files in a home directory; without one, the working directory. -/
def homeConfig : Option String → Path
  | some home => Path.child ⟨home⟩ ".config"
  | none => ⟨"."⟩

/-- The directory for the settings files of the user. -/
def configRoot : IO Path := do
  match ← IO.getEnv "XDG_CONFIG_HOME", ← IO.getEnv "HOME" with
  | some dir, home =>
    return if Path.isAbsolute ⟨dir⟩ then ⟨dir⟩ else homeConfig home
  | none, home => return homeConfig home

def operate (options : Options) (settings : Settings) : IO Unit := do
  let now ← clock
  display (Program.banner settings)
  let s := Program.session options settings (← unknown) now
  let (opened, s) ← take (survey settings) (Program.openAtOnce options) s
  display opened
  let s ← converse settings s
  let (summary, _) ← take (survey settings) (fun s =>
    match Program.finish settings now.read.1 s.shared with
    | (lines, shared) => (lines, s.setShared shared)) s
  display summary

end Machine

end EventCamera

def main (args : List String) : IO UInt32 := do
  let root ← EventCamera.Machine.configRoot
  let unknown ← EventCamera.Machine.unknown
  let files ← match EventCamera.Options.read args with
    | .ok options => EventCamera.Machine.lookInto unknown (options.settingsPath root)
    | .error _ => pure unknown
  match EventCamera.Program.opening args root files with
  | .shows lines =>
    EventCamera.Machine.display lines
    return 0
  | .refuses code reason =>
    IO.eprintln reason
    return code.toUInt32
  | .starts options settings =>
    EventCamera.Machine.operate options settings
    return 0
