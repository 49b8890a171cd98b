import EventCamera.Console.Interpreter
import EventCamera.Proofs.Engine.Steps
import EventCamera.Proofs.Recording.RunDirectories
/-!
# Recordings that begin and end while the engine works

The console begins and ends recordings, one control write at a time; batches arrive; the engine takes the steps of
its `Worker`. `Logbook.act` is one move, and a move that is not possible changes nothing. The log book keeps the run
directories, how each window opened, and every file that was written: its path and number, its window, and the run
that was in force.

`shared_recordingStart` and `shared_recordingStop`: without interference the console's moves do what its commands do.
-/

namespace EventCamera

/-- How a window opened: how many runs had begun by then, and whether recording was on. -/
structure Opening where
  run : Nat
  recording : Bool
  deriving DecidableEq, Repr

/-- How far the numbers of a run have got. -/
inductive Numbering where
  /-- Those of the run before go on. -/
  | old
  /-- A restart is requested. Tells whether a batch that was in progress then still is. -/
  | requested (inBatch : Bool)
  | restarted
  deriving DecidableEq, Repr

/-- The engine takes a request. -/
def Numbering.take : Numbering → Numbering
  | requested _ => restarted
  | n => n

/-- The engine has gone on to a phase. -/
def Numbering.goOn (phase : Phase) : Numbering → Numbering
  | requested inBatch => requested (inBatch && phase.inBatch)
  | n => n

/-- A file that was written. -/
structure Filing where
  path : Path
  number : UInt64
  window : Window
  opening : Opening
  /-- How many runs had begun when the window closed. -/
  run : Nat
  numbering : Numbering
  deriving DecidableEq, Repr

/-- The windows that an event closes, with how they opened: the first was the current window, the others open as the
event skips them. -/
def withOpenings (current now : Opening) : List Window → List (Window × Opening)
  | [] => []
  | w :: skipped => (w, current) :: skipped.map (·, now)

/-- The file that recording a closed window writes, if it does. -/
def filing? (run : Nat) (numbering : Numbering) (w : Window) (opening : Opening) (state : Recorder × Shared) :
    Option Filing :=
  match w.recording, state.2.control.recordingDir with
  | true, some dir =>
    match state.1.write dir w state.2.files with
    | (.ok path, recorder, _) => some ⟨path, recorder.written, w, opening, run, numbering⟩
    | (.error _, _, _) => none
  | _, _ => none

/-- The files that finishing windows writes. -/
def filings (run : Nat) (numbering : Numbering) : List (Window × Opening) → Recorder × Shared → List Filing
  | [], _ => []
  | (w, opening) :: rest, state =>
    (filing? run numbering w opening state).toList ++ filings run numbering rest (Pipeline.finishWindow state w)

/-! ## Moves -/

/-- The engine, the writes by which the console has still to begin a recording, and what was recorded. -/
structure Logbook where
  worker : Worker
  command : List Control.Write
  /-- The run directories, in the order in which the control state took them over. -/
  dirs : List Path
  /-- How the current window opened. -/
  opening : Opening
  /-- How far the numbers of the last run have got. -/
  numbering : Numbering
  filings : List Filing

/-- One move of one party. -/
inductive RecordingMove where
  /-- The console makes a run directory. -/
  | begin
  /-- It does the next write of the command that it has begun. -/
  | console
  | stop
  /-- Something that has nothing to do with recording changes. -/
  | set (w : Control.Write)
  | arrive (b : Batch)
  | engine
  deriving DecidableEq, Repr

/-- Whether the write can come from elsewhere than a command that begins or ends a recording. -/
def Control.Write.sparesRecording : Write → Bool
  | .recording _ | .requestRecordingReset | .recordingDir _ => false
  | _ => true

namespace Logbook

/-- An engine that has seen nothing, and no recording. The rest of the shared state is as it may be. -/
def start (length : WindowLength) (s : Shared) : Logbook where
  worker := .start length { s with control := .initial }
  command := []
  dirs := []
  opening := ⟨0, false⟩
  numbering := .old
  filings := []

def shared (s : Logbook) : Shared := s.worker.pipeline.shared

def setShared (shared : Shared) (s : Logbook) : Logbook := { s with worker.pipeline.shared := shared }

def write (w : Control.Write) (s : Logbook) : Logbook := s.setShared (s.shared.write [w])

def manager (s : Logbook) : WindowManager := s.worker.pipeline.engine.manager

/-- The console does a write. -/
def perform (s : Logbook) : Control.Write → Logbook
  | .recordingDir (some dir) =>
    { s.write (.recordingDir (some dir)) with dirs := s.dirs ++ [dir], numbering := .old }
  | .requestRecordingReset =>
    { s.write .requestRecordingReset with numbering := .requested s.worker.phase.inBatch }
  | w => s.write w

/-- How a window opens now. -/
def openingNow (s : Logbook) : Opening := ⟨s.dirs.length, s.shared.control.recording⟩

/-- The windows that an event closes now, with how they opened. -/
def closedBy (s : Logbook) (e : Event) : List (Window × Opening) :=
  withOpenings s.opening s.openingNow (s.manager.process e s.shared.control.recording).closed.toList

/-- How the window that is current after an event opened. -/
def openingAfter (s : Logbook) (e : Event) : Opening :=
  if s.manager.current.isSome && (s.closedBy e).isEmpty then s.opening else s.openingNow

/-- The files that an event writes. -/
def filingsOf (s : Logbook) (e : Event) : List Filing :=
  EventCamera.filings s.dirs.length s.numbering (s.closedBy e) (s.worker.pipeline.engine.recorder, s.shared)

/-- The engine has taken the step to `worker`. -/
def advance (worker : Worker) (s : Logbook) : Logbook :=
  match s.worker.phase with
  | .feed _ (e :: _) => { s with worker, opening := s.openingAfter e, filings := s.filings ++ s.filingsOf e }
  | .takeRecordingReset _ =>
    { s with worker, numbering := if s.shared.control.recordingResetRequested then s.numbering.take else s.numbering }
  | _ => { s with worker, numbering := s.numbering.goOn worker.phase }

/-- A move; run directories are made under `root`. -/
def act (root : Path) (s : Logbook) : RecordingMove → Logbook
  | .begin =>
    if s.command = [] ∧ s.shared.control.recording = false then
      match s.shared.clock.read with
      | (now, clock) =>
        match createRun root now s.shared.files with
        | (.error _, files) => s.setShared { s.shared with clock, files }
        | (.ok dir, files) =>
          { s.setShared { s.shared with clock, files } with command := Control.recordingWrites dir }
    else s
  | .console =>
    match s.command with
    | [] => s
    | w :: rest => { s.perform w with command := rest }
  | .stop => if s.command = [] ∧ s.shared.control.recording = true then s.write (.recording false) else s
  | .set w => if w.sparesRecording then s.write w else s
  | .arrive b => s.setShared { s.shared with queue.batches := s.shared.queue.batches ++ [b] }
  | .engine =>
    match s.worker.step? with
    | none => s
    | some worker => s.advance worker

def run (root : Path) (s : Logbook) (moves : List RecordingMove) : Logbook := moves.foldl (act root) s

end Logbook

/-! ## Commands -/

namespace Desk

variable {δ : Type}

/-- The command that begins a recording makes a directory and does three writes. -/
theorem shared_recordingStart (d : Desk δ) {s : Logbook} (hs : s.shared = d.shared) (hidle : s.command = []) :
    (s.run d.interpreter.outputRoot [.begin, .console, .console, .console]).shared = d.recordingStart.2.shared := by
  have hstay : ∀ s' : Logbook, s'.command = [] →
      s'.run d.interpreter.outputRoot [.console, .console, .console] = s' := by
    intro s' h
    simp [Logbook.run, Logbook.act, h]
  show ((s.act d.interpreter.outputRoot .begin).run d.interpreter.outputRoot _).shared = _
  unfold recordingStart Logbook.act
  dsimp only
  rw [hs]
  cases hr : d.shared.control.recording with
  | true =>
    rw [if_neg (fun h => Bool.noConfusion h.2), if_pos rfl, hstay s hidle]
    exact hs
  | false =>
    rw [if_pos ⟨hidle, rfl⟩, if_neg Bool.false_ne_true]
    rcases createRun d.interpreter.outputRoot d.shared.clock.read.1 d.shared.files with ⟨_ | dir, files⟩
    · have h := hstay (s.setShared { d.shared with clock := d.shared.clock.read.2, files }) hidle
      exact congrArg Logbook.shared h
    · rfl

theorem shared_recordingStop (d : Desk δ) {s : Logbook} (hs : s.shared = d.shared) (hidle : s.command = [])
    (root : Path) : (s.act root .stop).shared = d.recordingStop.2.shared := by
  unfold recordingStop Logbook.act
  dsimp only
  rw [hs]
  cases hr : d.shared.control.recording with
  | true =>
    rw [if_pos ⟨hidle, rfl⟩, if_pos rfl, Logbook.write, hs]
    rfl
  | false =>
    rw [if_neg (fun h => Bool.noConfusion h.2), if_neg Bool.false_ne_true]
    exact hs

end Desk

/-! ## Files that are written -/

/-- A window is written under the next number, or the count stays. Directories stay in any case. -/
theorem Recorder.write_cases (dir : Path) (w : Window) (recorder : Recorder) (tree : FileTree) :
    (∃ files, recorder.write dir w tree =
        (.ok (dir.child (windowFileName (recorder.written + 1) w.start)), ⟨recorder.written + 1⟩, files) ∧
      tree.Keeps files) ∨
    (∃ cause files, recorder.write dir w tree = (.error cause, recorder, files) ∧ tree.Keeps files) := by
  have hkeeps := tree.keeps_writeAtomically (dir.child (windowFileName (recorder.written + 1) w.start))
    (Bytes.ofChars w.text)
  unfold Recorder.write
  dsimp only
  generalize tree.writeAtomically (dir.child (windowFileName (recorder.written + 1) w.start)) (Bytes.ofChars w.text) =
    result at hkeeps ⊢
  obtain ⟨_ | _, files⟩ := result
  · exact .inr ⟨_, files, rfl, hkeeps⟩
  · exact .inl ⟨files, rfl, hkeeps⟩

section

variable {run : Nat} {numbering : Numbering} {opening now : Opening}

/-- Finishing a window writes a file under the next number, or writes none and leaves the counts. -/
theorem filing?_cases (run : Nat) (numbering : Numbering) (w : Window) (opening : Opening) (recorder : Recorder)
    (s : Shared) :
    s.files.Keeps (Pipeline.finishWindow (recorder, s) w).2.files ∧
    ((filing? run numbering w opening (recorder, s) = none ∧
        (Pipeline.finishWindow (recorder, s) w).1 = recorder ∧
        (Pipeline.finishWindow (recorder, s) w).2.counters.recorded = s.counters.recorded) ∨
      ∃ dir, w.recording = true ∧ s.control.recordingDir = some dir ∧
        filing? run numbering w opening (recorder, s) =
          some ⟨dir.child (windowFileName (recorder.written + 1) w.start), recorder.written + 1, w, opening, run,
            numbering⟩ ∧
        (Pipeline.finishWindow (recorder, s) w).1 = ⟨recorder.written + 1⟩ ∧
        (Pipeline.finishWindow (recorder, s) w).2.counters.recorded = s.counters.recorded + 1) := by
  rw [Pipeline.finishWindow_eq]
  rcases Pipeline.recordWindow_cases w recorder s with ⟨hr, h⟩ | ⟨hr, hd, h⟩ |
    ⟨dir, path, recorder', files, hr, hd, hw, h⟩ | ⟨dir, cause, recorder', files, hr, hd, hw, h⟩
  · rw [h]
    exact ⟨.refl _, .inl ⟨by simp [filing?, hr], rfl, rfl⟩⟩
  · rw [h]
    exact ⟨.refl _, .inl ⟨by simp [filing?, hr, hd], rfl, rfl⟩⟩
  · obtain ⟨files', hw', hkeeps⟩ | ⟨cause, files', hw', -⟩ := recorder.write_cases dir w s.files
    · rw [hw', Prod.mk.injEq, Prod.mk.injEq] at hw
      obtain ⟨-, rfl, rfl⟩ := hw
      rw [h]
      exact ⟨hkeeps, .inr ⟨dir, hr, hd, by simp [filing?, hr, hd, hw'], rfl, rfl⟩⟩
    · rw [hw', Prod.mk.injEq] at hw
      cases hw.1
  · obtain ⟨files', hw', -⟩ | ⟨cause', files', hw', hkeeps⟩ := recorder.write_cases dir w s.files
    · rw [hw', Prod.mk.injEq] at hw
      cases hw.1
    · rw [hw'] at hw
      cases hw
      rw [h]
      exact ⟨hkeeps, .inl ⟨by simp [filing?, hr, hd, hw'], rfl, rfl⟩⟩

/-- What a file tells, and what was in force when it was written. -/
theorem mem_filings {ps : List (Window × Opening)} {state : Recorder × Shared} {f : Filing}
    (h : f ∈ filings run numbering ps state) :
    (f.window, f.opening) ∈ ps ∧ f.window.recording = true ∧ f.run = run ∧ f.numbering = numbering ∧
      ∃ dir, state.2.control.recordingDir = some dir ∧
        f.path = dir.child (windowFileName f.number f.window.start) := by
  induction ps generalizing state with
  | nil => cases h
  | cons p rest ih =>
    obtain ⟨w, opening⟩ := p
    obtain ⟨recorder, s⟩ := state
    rw [filings, List.mem_append] at h
    rcases h with h | h
    · obtain ⟨-, ⟨hnone, -⟩ | ⟨dir, hr, hd, hsome, -⟩⟩ := filing?_cases run numbering w opening recorder s
      · rw [hnone] at h
        cases h
      · rw [hsome, Option.toList_some, List.mem_singleton] at h
        subst h
        refine ⟨List.mem_cons_self, hr, rfl, rfl, dir, hd, ?_⟩
        dsimp only
    · obtain ⟨hp, hr, hrun, hn, hdir⟩ := ih h
      rw [Pipeline.control_finishWindow] at hdir
      exact ⟨List.mem_cons_of_mem _ hp, hr, hrun, hn, hdir⟩

theorem add_one_add_ofNat (n : UInt64) (k : Nat) : n + 1 + .ofNat k = n + .ofNat (k + 1) := by
  rw [Nat.add_comm k, UInt64.ofNat_add, ← UInt64.add_assoc]
  rfl

/-- Files are numbered one after the other, and both counts go on from the last of them. -/
theorem number_filings (run : Nat) (numbering : Numbering) (ps : List (Window × Opening))
    (state : Recorder × Shared) :
    let fs := filings run numbering ps state
    let finished := (ps.map Prod.fst).foldl Pipeline.finishWindow state
    fs.map Filing.number = (List.range fs.length).map (fun k => state.1.written + .ofNat (k + 1)) ∧
    finished.1.written = state.1.written + .ofNat fs.length ∧
    finished.2.counters.recorded = state.2.counters.recorded + .ofNat fs.length := by
  dsimp only
  induction ps generalizing state with
  | nil => exact ⟨rfl, (UInt64.add_zero _).symm, (UInt64.add_zero _).symm⟩
  | cons p rest ih =>
    obtain ⟨w, opening⟩ := p
    obtain ⟨recorder, s⟩ := state
    obtain ⟨hnumbers, hwritten, hcounted⟩ := ih (Pipeline.finishWindow (recorder, s) w)
    rw [filings, List.map_cons, List.foldl_cons]
    obtain ⟨-, ⟨hnone, hnumber, hcount⟩ | ⟨dir, -, -, hsome, hnumber, hcount⟩⟩ :=
      filing?_cases run numbering w opening recorder s
    · rw [hnumber] at hnumbers hwritten
      rw [hcount] at hcounted
      rw [hnone, Option.toList_none, List.nil_append]
      exact ⟨hnumbers, hwritten, hcounted⟩
    · rw [hnumber] at hnumbers hwritten
      rw [hcount] at hcounted
      simp only [add_one_add_ofNat] at hnumbers hwritten hcounted
      rw [hsome, Option.toList_some, List.singleton_append, List.map_cons, List.length_cons, List.range_succ_eq_map,
        List.map_cons, List.map_map, hnumbers]
      exact ⟨rfl, hwritten, hcounted⟩

/-- Directories stay while windows are finished. -/
theorem keeps_foldl_finishWindow (closed : List Window) (state : Recorder × Shared) :
    state.2.files.Keeps (closed.foldl Pipeline.finishWindow state).2.files := by
  induction closed generalizing state with
  | nil => exact .refl _
  | cons w rest ih =>
    obtain ⟨recorder, s⟩ := state
    have hone := (filing?_cases 0 .old w ⟨0, false⟩ recorder s).1
    exact hone.trans (ih _)

theorem fst_withOpenings (current now : Opening) (closed : List Window) :
    (withOpenings current now closed).map Prod.fst = closed := by
  cases closed with
  | nil => rfl
  | cons w rest => simp [withOpenings, Function.comp_def]

/-- Only the first of the files can be of a window that was open before. -/
theorem opening_of_mem_tail_filings {closed : List Window} {state : Recorder × Shared} {f : Filing}
    (h : f ∈ (filings run numbering (withOpenings opening now closed) state).tail) : f.opening = now := by
  cases closed with
  | nil => cases h
  | cons w rest =>
    have hskipped : ∀ state', f ∈ filings run numbering (rest.map (·, now)) state' → f.opening = now := by
      intro state' hf
      obtain ⟨v, -, heq⟩ := List.mem_map.1 (mem_filings hf).1
      exact (congrArg Prod.snd heq).symm
    rw [withOpenings, filings] at h
    cases hw : filing? run numbering w opening state with
    | none =>
      rw [hw, Option.toList_none, List.nil_append] at h
      exact hskipped _ (List.mem_of_mem_tail h)
    | some g =>
      rw [hw, Option.toList_some, List.singleton_append, List.tail_cons] at h
      exact hskipped _ h

end

/-! ## Steps of the engine -/

namespace Worker

variable {w w' : Worker}

/-- What a step of the engine does to a recording, in three cases. -/
theorem step?_cases (h : w.step? = some w') :
    -- It feeds an event.
    (∃ session e rest, w.phase = .feed session (e :: rest) ∧ w'.phase = .feed session rest ∧
      w'.pipeline = w.pipeline.feed e) ∨
    -- It takes a request for new numbers, if there is one.
    (∃ inHand, w.phase = .takeRecordingReset inHand ∧ w'.pipeline = w.pipeline.applyRecordingReset) ∨
    -- It does neither; it may drop the current window. A batch that is in progress after it was so before it.
    ((∀ session e rest, w.phase ≠ .feed session (e :: rest)) ∧ (∀ inHand, w.phase ≠ .takeRecordingReset inHand) ∧
      (w'.phase.inBatch = true → w.phase.inBatch = true) ∧
      (∃ reset, w'.pipeline.shared.control = { w.pipeline.shared.control with resetRequested := reset }) ∧
      w'.pipeline.shared.files = w.pipeline.shared.files ∧
      w'.pipeline.shared.counters.recorded = w.pipeline.shared.counters.recorded ∧
      w'.pipeline.engine.recorder = w.pipeline.engine.recorder ∧
      (w'.pipeline.engine.manager = w.pipeline.engine.manager ∨ w'.pipeline.engine.manager.current = none)) := by
  cases did_of_step? h with
  | passed hpassing hbatch hrest hbetween =>
    exact .inr (.inr ⟨fun _ _ _ => Phase.ne_of_isPassing hpassing rfl, fun _ => Phase.ne_of_isPassing hpassing rfl,
      by simp [hbetween], ⟨_, rfl⟩, rfl, rfl, rfl, .inl rfl⟩)
  | renumbered hphase => exact .inr (.inl ⟨_, hphase, rfl⟩)
  | fed hphase => exact .inl ⟨_, _, _, hphase, rfl, rfl⟩
  | dropped hphase =>
    exact .inr (.inr ⟨by simp [hphase], by simp [hphase], by simp [Phase.inBatch], ⟨_, rfl⟩, rfl, rfl, rfl, .inr rfl⟩)
  | took hphase | began hphase | turnedAway hphase =>
    exact .inr (.inr ⟨by simp [hphase], by simp [hphase], by simp [hphase, Phase.inBatch], ⟨_, rfl⟩, rfl, rfl, rfl,
      .inl rfl⟩)

end Worker

namespace Logbook

variable {s : Logbook} {worker : Worker}

theorem advance_of_feed {session : SessionId} {e : Event} {rest : List Event}
    (hphase : s.worker.phase = .feed session (e :: rest)) :
    s.advance worker = { s with worker, opening := s.openingAfter e, filings := s.filings ++ s.filingsOf e } := by
  unfold advance
  rw [hphase]

theorem advance_of_take {inHand : Option Batch} (hphase : s.worker.phase = .takeRecordingReset inHand) :
    s.advance worker = { s with
      worker, numbering := if s.shared.control.recordingResetRequested then s.numbering.take else s.numbering } := by
  unfold advance
  rw [hphase]

theorem advance_of_other (hfeed : ∀ session e rest, s.worker.phase ≠ .feed session (e :: rest))
    (htake : ∀ inHand, s.worker.phase ≠ .takeRecordingReset inHand) :
    s.advance worker = { s with worker, numbering := s.numbering.goOn worker.phase } := by
  unfold advance
  split
  · next session e rest hphase => exact absurd hphase (hfeed session e rest)
  · next inHand hphase => exact absurd hphase (htake inHand)
  · rfl

/-! ## The log book is complete -/

/-- Both counts go on with the files that an event writes. -/
theorem counts_feed (s : Logbook) (e : Event) :
    (s.worker.pipeline.feed e).engine.recorder.written =
      s.worker.pipeline.engine.recorder.written + .ofNat (s.filingsOf e).length ∧
    (s.worker.pipeline.feed e).shared.counters.recorded =
      s.shared.counters.recorded + .ofNat (s.filingsOf e).length := by
  obtain ⟨-, hwritten, hcounted⟩ := number_filings s.dirs.length s.numbering (s.closedBy e)
    (s.worker.pipeline.engine.recorder, s.shared)
  rw [closedBy, fst_withOpenings] at hwritten hcounted
  rw [Pipeline.feed_eq]
  refine ⟨hwritten, ?_⟩
  dsimp only
  rw [Pipeline.countOutcome_eq]
  exact hcounted

/-- The files in the book are those that the program has counted. -/
def Complete (before : UInt64) (s : Logbook) : Prop := s.shared.counters.recorded = before + .ofNat s.filings.length

variable {before : UInt64} {root : Path}

theorem Complete.step (h : s.Complete before) (hstep : s.worker.step? = some worker) :
    (s.advance worker).Complete before := by
  rcases Worker.step?_cases hstep with ⟨session, e, rest, hphase, -, hpipeline⟩ | ⟨inHand, hphase, hpipeline⟩ |
    ⟨hfeed, htake, -, -, -, hcounted, -, -⟩
  · rw [advance_of_feed hphase]
    show worker.pipeline.shared.counters.recorded = before + .ofNat (s.filings ++ s.filingsOf e).length
    rw [hpipeline, (s.counts_feed e).2, h, List.length_append, UInt64.ofNat_add, UInt64.add_assoc]
  · rw [advance_of_take hphase]
    show worker.pipeline.shared.counters.recorded = before + .ofNat s.filings.length
    rw [hpipeline, Pipeline.applyRecordingReset_eq]
    exact h
  · rw [advance_of_other hfeed htake]
    exact hcounted.trans h

/-- Only the engine counts files and writes them. -/
theorem Complete.act (h : s.Complete before) (m : RecordingMove) : (s.act root m).Complete before := by
  have hperform : ∀ w : Control.Write, (s.perform w).Complete before := by
    intro w
    unfold perform
    split <;> exact h
  cases m with
  | begin =>
    unfold Logbook.act
    dsimp only
    split
    · split <;> exact h
    · exact h
  | console =>
    unfold Logbook.act
    dsimp only
    split
    · exact h
    · exact hperform _
  | stop | set =>
    unfold Logbook.act
    dsimp only
    split <;> exact h
  | arrive => exact h
  | engine =>
    unfold Logbook.act
    dsimp only
    split
    · exact h
    · next hstep => exact h.step hstep

theorem Complete.run (h : s.Complete before) (moves : List RecordingMove) : (s.run root moves).Complete before := by
  induction moves generalizing s with
  | nil => exact h
  | cons m rest ih => exact ih (h.act m)

theorem complete_start (length : WindowLength) (shared : Shared) :
    (start length shared).Complete shared.counters.recorded :=
  (UInt64.add_zero _).symm

end Logbook

end EventCamera
