import EventCamera.Program
import EventCamera.Proofs.Console.Keys
import EventCamera.Proofs.Engine.Steps
import EventCamera.Proofs.Recording.FreshRuns
/-!
# Every tree that the program reaches is grounded

What the program does to the file tree it does by operations of `FileTree.Reaches`: a step of the engine
(`Worker.reaches_step?`), a command (`Desk.reaches_handle`), both in any order (`Crew.reaches_run`), and a run of the
program over console lines (`Program.reaches_run`). So from a tree in which every entry lies in a directory it goes on to
such trees (`Crew.grounded_run`, `Program.grounded_run`).

In them a recording begins in a fresh directory. `Crew.recording_begins_fresh`: it does so whatever has happened before.
-/

namespace EventCamera

/-! ## Recordings and captures -/

theorem reaches_saveCapture (root : Path) (frame : Frame) (taken : Instant) (tree : FileTree) :
    tree.Reaches (saveCapture root frame taken tree).2 := by
  have hway := tree.reaches_createDirectories (capturesDirectory root)
  unfold saveCapture
  dsimp only
  split
  · next hcreate => exact hway.of_result hcreate
  · next mid hcreate =>
    have hwrite := mid.reaches_writeAtomically ((capturesDirectory root).child (captureFileName taken)) frame.image
    split <;> next heq => exact (hway.of_result hcreate).trans (hwrite.of_result heq)

theorem Recorder.reaches_write (dir : Path) (w : Window) (recorder : Recorder) (tree : FileTree) :
    tree.Reaches (recorder.write dir w tree).2.2 := by
  have hwrite := tree.reaches_writeAtomically (dir.child (windowFileName (recorder.written + 1) w.start))
    (Bytes.ofChars w.text)
  unfold write
  dsimp only
  split <;> next heq => exact hwrite.of_result heq

/-! ## The engine -/

namespace Pipeline

theorem reaches_finishWindow (w : Window) (state : Recorder × Shared) :
    state.2.files.Reaches (finishWindow state w).2.files := by
  obtain ⟨recorder, s⟩ := state
  rw [finishWindow_eq]
  rcases recordWindow_cases w recorder s with ⟨-, h⟩ | ⟨-, -, h⟩ | ⟨dir, _, _, _, -, -, hw, h⟩ |
    ⟨dir, _, _, _, -, -, hw, h⟩ <;> rw [h]
  · exact .refl
  · exact .refl
  · exact (recorder.reaches_write dir w s.files).of_result (congrArg Prod.snd hw)
  · exact (recorder.reaches_write dir w s.files).of_result (congrArg Prod.snd hw)

theorem reaches_foldl_finishWindow (closed : List Window) (state : Recorder × Shared) :
    state.2.files.Reaches (closed.foldl finishWindow state).2.files := by
  induction closed generalizing state with
  | nil => exact .refl
  | cons w rest ih => exact (reaches_finishWindow w state).trans (ih _)

theorem reaches_feed (p : Pipeline) (e : Event) : p.shared.files.Reaches (p.feed e).shared.files := by
  have hfiles : ∀ outcome s, (countOutcome outcome s).files = s.files := by
    intro outcome s
    cases outcome <;> rfl
  rw [feed_eq]
  dsimp only
  rw [hfiles]
  exact reaches_foldl_finishWindow _ (p.engine.recorder, p.shared)

end Pipeline

theorem Worker.reaches_step? {w w' : Worker} (h : w.step? = some w') :
    w.pipeline.shared.files.Reaches w'.pipeline.shared.files := by
  cases did_of_step? h with
  | renumbered => rw [Pipeline.applyRecordingReset_eq]
  | @fed session e rest => exact w.pipeline.reaches_feed e
  | _ => exact .refl

/-! ## The console -/

variable {δ : Type}

theorem Desk.Effect.reaches [BiasFacility δ] {d d' : Desk δ} {c : Command} {reply : Reply} (h : d.Effect c reply d') :
    d.shared.files.Reaches d'.shared.files := by
  cases h with
  | began _ _ hcreate => exact (reaches_createRun ..).of_result hcreate
  | unbegun _ hcreate => exact (reaches_createRun ..).of_result hcreate
  | captured _ _ hsave => exact (reaches_saveCapture ..).of_result hsave
  | uncaptured _ _ hsave => exact (reaches_saveCapture ..).of_result hsave
  | _ => exact .refl

theorem Desk.reaches_handle [BiasFacility δ] (c : Command) (d : Desk δ) :
    d.shared.files.Reaches (d.handle c).2.shared.files :=
  (effect_handle c d).reaches

namespace Console

theorem desk_refresh (c : Console δ) : c.refresh.2.desk = c.desk := by
  unfold refresh
  split <;> rfl

variable [BiasFacility δ]

theorem reaches_runCommands (commands : List Command) (d : Desk δ) :
    d.shared.files.Reaches (runCommands commands d).2.shared.files := by
  induction commands generalizing d with
  | nil => exact .refl
  | cons command rest ih =>
    rw [runCommands_cons]
    split
    · exact (d.reaches_handle command).trans (ih _)
    · exact d.reaches_handle command

theorem reaches_handleLine (line : String) (c : Console δ) :
    c.desk.shared.files.Reaches (c.handleLine line).2.desk.shared.files := by
  unfold handleLine
  split
  · exact reaches_runCommands _ c.desk
  · exact .refl
  · exact .refl

theorem reaches_handleLines (lines : List String) (c : Console δ) :
    c.desk.shared.files.Reaches (handleLines lines c).2.desk.shared.files := by
  induction lines generalizing c with
  | nil => exact .refl
  | cons line rest ih =>
    unfold handleLines
    split
    · have hrest := ih (c.handleLine line).2.refresh.2
      rw [desk_refresh] at hrest
      exact (c.reaches_handleLine line).trans hrest
    · exact .refl

theorem reaches_run (lines : List String) (c : Console δ) :
    c.desk.shared.files.Reaches (c.run lines).2.desk.shared.files := by
  have hlines := c.reaches_handleLines lines
  unfold run
  dsimp only
  split
  · show c.desk.shared.files.Reaches (handleLines lines c).2.refresh.2.desk.shared.files
    rw [desk_refresh]
    exact hlines
  · exact hlines

end Console

/-! ## Console and engine at work -/

/-- The interpreter and the engine, at work on one shared state. -/
structure Crew (δ : Type) where
  worker : Worker
  interpreter : Interpreter δ

inductive CrewMove where
  | command (c : Command)
  | engine
  /-- Anything but the files changes, as it likes: the camera delivers, somebody is woken, time goes by. -/
  | meanwhile (s : Shared)

namespace Crew

def desk (x : Crew δ) : Desk δ := ⟨x.worker.pipeline.shared, x.interpreter⟩

def setDesk (d : Desk δ) (x : Crew δ) : Crew δ :=
  { worker := { x.worker with pipeline.shared := d.shared }, interpreter := d.interpreter }

variable [BiasFacility δ]

def act (x : Crew δ) : CrewMove → Crew δ
  | .command c => x.setDesk (x.desk.handle c).2
  | .engine => { x with worker := x.worker.step?.getD x.worker }
  | .meanwhile s => x.setDesk { x.desk with shared := { s with files := x.desk.shared.files } }

def run (x : Crew δ) (moves : List CrewMove) : Crew δ := moves.foldl act x

theorem reaches_act (x : Crew δ) (m : CrewMove) : x.desk.shared.files.Reaches (x.act m).desk.shared.files := by
  cases m with
  | command c => exact x.desk.reaches_handle c
  | engine =>
    rw [act]
    cases hstep : x.worker.step? with
    | none => exact .refl
    | some w => exact Worker.reaches_step? hstep
  | meanwhile s => exact .refl

theorem reaches_run (x : Crew δ) (moves : List CrewMove) :
    x.desk.shared.files.Reaches (x.run moves).desk.shared.files := by
  induction moves generalizing x with
  | nil => exact .refl
  | cons m rest ih => exact (x.reaches_act m).trans (ih (x.act m))

/-- A grounded tree stays grounded, whatever the console and the engine do. -/
theorem grounded_run {x : Crew δ} (h : x.desk.shared.files.Grounded) (moves : List CrewMove) :
    (x.run moves).desk.shared.files.Grounded :=
  (x.reaches_run moves).grounded h

end Crew

/-! ## A run of the program -/

namespace Program

theorem reaches_openAtOnce (o : Options) (s : Session MemoryBiases) :
    s.shared.files.Reaches (openAtOnce o s).2.shared.files := by
  unfold openAtOnce
  split
  · exact s.console.desk.reaches_handle .acquisitionOn
  · exact .refl

theorem reaches_finish (settings : Settings) (started : Instant) (s : Shared) :
    s.files.Reaches (finish settings started s).2.files := by
  unfold finish
  dsimp only
  split
  · exact .refl
  · next p _ => exact s.files.reaches_writeWithParents p _

theorem reaches_run (args lines : List String) (configRoot : Path) (files : FileTree) (clock : Clock) :
    files.Reaches (run args lines configRoot files clock).shared.files := by
  unfold run
  split
  · exact .refl
  · exact .refl
  · next o settings _ =>
    have hopened := reaches_openAtOnce o (session o settings files clock.read.2)
    have hlines := (openAtOnce o (session o settings files clock.read.2)).2.console.reaches_run lines
    exact (hopened.trans hlines).trans (reaches_finish settings clock.read.1 _)

/-- A tree that is grounded before a run is grounded after it. -/
theorem grounded_run {files : FileTree} (h : files.Grounded) (args lines : List String) (configRoot : Path)
    (clock : Clock) : (run args lines configRoot files clock).shared.files.Grounded :=
  (reaches_run args lines configRoot files clock).grounded h

end Program

/-! ## Recordings that begin -/

namespace Desk

/-- How a recording begins: in a fresh directory, or not at all. -/
inductive Begins (d : Desk δ) (now : Instant) : Reply × Desk δ → Prop
  | fresh {lines : List String} {d' : Desk δ} (k : Nat)
      (hdir : d'.shared.control.recordingDir = some (runPath d.interpreter.outputRoot now k))
      (hon : d'.shared.control.recording = true)
      (hbegun : Begun d.interpreter.outputRoot now k d.shared.files d'.shared.files) : Begins d now (.ok lines, d')
  | failed {e : StorageError} {d' : Desk δ} (hcontrol : d'.shared.control = d.shared.control)
      (hnot : NotBegun d.interpreter.outputRoot now e d.shared.files d'.shared.files) :
      Begins d now (.error (.storage e), d')

theorem begins_recordingStart {d : Desk δ} (hg : d.shared.files.Grounded) (hoff : d.shared.control.recording = false) :
    d.Begins d.shared.clock.read.1 d.recordingStart := by
  rcases hclock : d.shared.clock.read with ⟨now, clock⟩
  have hends := runOutcome_createRun d.interpreter.outputRoot now d.shared.files
  rw [recordingStart, if_neg (by simp [hoff]), hclock]
  dsimp only
  generalize createRun d.interpreter.outputRoot now d.shared.files = result at hends ⊢
  obtain ⟨e | dir, files⟩ := result
  · exact .failed rfl hends.notBegun_of_error
  · obtain ⟨k, rfl, hbegun⟩ := hends.begun_of_ok hg
    exact .fresh k rfl rfl hbegun

end Desk

/-- Whatever the console and the engine have done, if they found a grounded tree, a recording that begins then gets a new
and empty directory under the first free name. -/
theorem Crew.recording_begins_fresh [BiasFacility δ] {x : Crew δ} (hg : x.desk.shared.files.Grounded)
    (moves : List CrewMove) :
    let d := (x.run moves).desk
    d.shared.control.recording = false → d.Begins d.shared.clock.read.1 (d.handle .recordingStart) := by
  intro d hoff
  exact Desk.begins_recordingStart (grounded_run hg moves) hoff

end EventCamera
