import EventCamera.Engine
import EventCamera.Proofs.Window.Closing
/-!
# What feeding an event does

Finishing a closed window reads the recording directory and writes files, the latest frame and three
counters; the rest of the shared state has no part in it (`finishWindow_setInflow`).

`Pipeline.forecast` is what an engine leaves when it is fed the rest of a stream, one event after the
other: the windows closed, the manager, the latest frame, the files, and the counters that tell of events
and windows. It is the same before and after an event (`forecast_feed`), and the queue and the counters
of batches have no part in it (`forecast_setInflow`).
-/

namespace EventCamera

/-- The part of the shared state that finishing a window neither reads nor writes. -/
structure Inflow where
  queue : HandoffQueue
  enqueued : UInt64
  dropped : UInt64
  events : UInt64
  outOfBounds : UInt64

namespace Shared

def inflow (s : Shared) : Inflow :=
  ⟨s.queue, s.counters.enqueued, s.counters.dropped, s.counters.events, s.counters.outOfBounds⟩

def setInflow (i : Inflow) (s : Shared) : Shared :=
  { s with
    queue := i.queue
    counters := { s.counters with
      enqueued := i.enqueued, dropped := i.dropped, events := i.events, outOfBounds := i.outOfBounds } }

theorem setInflow_inflow (s : Shared) : s.setInflow s.inflow = s := rfl

theorem inflow_setInflow (i : Inflow) (s : Shared) : (s.setInflow i).inflow = i := rfl

end Shared

/-- A window as it is published. -/
def Window.publication (w : Window) : Published := ⟨⟨w.index, w.start⟩, w.canvas⟩

namespace Pipeline

/-! ## Finishing windows -/

/-- What recording a closed window does, in four cases. -/
theorem recordWindow_cases (w : Window) (recorder : Recorder) (s : Shared) :
    -- It is not to be recorded.
    (w.recording = false ∧ recordWindow w (recorder, s) = (recorder, s)) ∨
    -- There is no directory.
    (w.recording = true ∧ s.control.recordingDir = none ∧
      recordWindow w (recorder, s) = (recorder, s.count .addFailure)) ∨
    -- Its file is written.
    (∃ dir path recorder' files, w.recording = true ∧ s.control.recordingDir = some dir ∧
      recorder.write dir w s.files = (.ok path, recorder', files) ∧
      recordWindow w (recorder, s) = (recorder', { s with files }.count .addRecorded)) ∨
    -- Its file is not written.
    (∃ dir cause recorder' files, w.recording = true ∧ s.control.recordingDir = some dir ∧
      recorder.write dir w s.files = (.error cause, recorder', files) ∧
      recordWindow w (recorder, s) = (recorder', { s with files }.count .addFailure)) := by
  cases hr : w.recording with
  | false => exact .inl ⟨rfl, by simp [recordWindow, hr]⟩
  | true =>
    cases hd : s.control.recordingDir with
    | none => exact .inr (.inl ⟨rfl, rfl, by simp [recordWindow, hr, hd]⟩)
    | some dir =>
      rcases hw : recorder.write dir w s.files with ⟨_ | _, recorder', files⟩
      · exact .inr (.inr (.inr ⟨dir, _, recorder', files, rfl, rfl, hw, by simp [recordWindow, hr, hd, hw]⟩))
      · exact .inr (.inr (.inl ⟨dir, _, recorder', files, rfl, rfl, hw, by simp [recordWindow, hr, hd, hw]⟩))

theorem finishWindow_eq (state : Recorder × Shared) (w : Window) :
    finishWindow state w = ((recordWindow w state).1, publishWindow w (recordWindow w state).2) := rfl

theorem control_finishWindow (state : Recorder × Shared) (w : Window) :
    (finishWindow state w).2.control = state.2.control := by
  obtain ⟨recorder, s⟩ := state
  rcases recordWindow_cases w recorder s with ⟨-, h⟩ | ⟨-, -, h⟩ | ⟨_, _, _, _, -, -, -, h⟩ | ⟨_, _, _, _, -, -, -, h⟩ <;>
    rw [finishWindow_eq, h] <;> rfl

theorem control_foldl_finishWindow (closed : List Window) (state : Recorder × Shared) :
    (closed.foldl finishWindow state).2.control = state.2.control := by
  induction closed generalizing state with
  | nil => rfl
  | cons w rest ih => rw [List.foldl_cons, ih, control_finishWindow]

theorem finishWindow_setInflow (i : Inflow) (recorder : Recorder) (s : Shared) (w : Window) :
    finishWindow (recorder, s.setInflow i) w =
      ((finishWindow (recorder, s) w).1, (finishWindow (recorder, s) w).2.setInflow i) := by
  simp only [finishWindow_eq]
  rcases recordWindow_cases w recorder s with ⟨hr, h⟩ | ⟨hr, hd, h⟩ |
    ⟨dir, _, recorder', files, hr, hd, hw, h⟩ | ⟨dir, _, recorder', files, hr, hd, hw, h⟩
  · have h' : recordWindow w (recorder, s.setInflow i) = (recorder, s.setInflow i) := by
      simp [recordWindow, hr]
    rw [h, h']
    rfl
  · have h' : recordWindow w (recorder, s.setInflow i) = (recorder, (s.setInflow i).count .addFailure) := by
      simp [recordWindow, hr, Shared.setInflow, hd]
    rw [h, h']
    rfl
  · have h' : recordWindow w (recorder, s.setInflow i) =
        (recorder', { s.setInflow i with files }.count .addRecorded) := by
      simp only [recordWindow, hr, Shared.setInflow, hd, hw, if_true]
    rw [h, h']
    rfl
  · have h' : recordWindow w (recorder, s.setInflow i) =
        (recorder', { s.setInflow i with files }.count .addFailure) := by
      simp only [recordWindow, hr, Shared.setInflow, hd, hw, if_true]
    rw [h, h']
    rfl

theorem foldl_finishWindow_setInflow (i : Inflow) (closed : List Window) (recorder : Recorder) (s : Shared) :
    closed.foldl finishWindow (recorder, s.setInflow i) =
      ((closed.foldl finishWindow (recorder, s)).1, (closed.foldl finishWindow (recorder, s)).2.setInflow i) := by
  induction closed generalizing recorder s with
  | nil => rfl
  | cons w rest ih => rw [List.foldl_cons, finishWindow_setInflow, ih]; rfl

theorem inflow_foldl_finishWindow (closed : List Window) (recorder : Recorder) (s : Shared) :
    (closed.foldl finishWindow (recorder, s)).2.inflow = s.inflow := by
  have h := foldl_finishWindow_setInflow s.inflow closed recorder s
  rw [Shared.setInflow_inflow] at h
  rw [h, Shared.inflow_setInflow]

/-! ## One event -/

theorem feed_eq (p : Pipeline) (e : Event) :
    p.feed e =
      let step := p.engine.manager.process e p.shared.control.recording
      let finished := step.closed.toList.foldl finishWindow (p.engine.recorder, p.shared)
      ⟨countOutcome step.outcome finished.2, ⟨step.manager, finished.1⟩⟩ := by
  dsimp only
  rw [Array.foldl_toList]
  rfl

@[simp] theorem control_countOutcome (outcome : Outcome) (s : Shared) :
    (countOutcome outcome s).control = s.control := by
  cases outcome <;> rfl

@[simp] theorem queue_countOutcome (outcome : Outcome) (s : Shared) :
    (countOutcome outcome s).queue = s.queue := by
  cases outcome <;> rfl

@[simp] theorem control_feed (p : Pipeline) (e : Event) : (p.feed e).shared.control = p.shared.control := by
  rw [feed_eq, control_countOutcome, control_foldl_finishWindow]

@[simp] theorem queue_feed (p : Pipeline) (e : Event) : (p.feed e).shared.queue = p.shared.queue := by
  rw [feed_eq, queue_countOutcome]
  exact congrArg Inflow.queue (inflow_foldl_finishWindow ..)

theorem manager_feed (p : Pipeline) (e : Event) :
    (p.feed e).engine.manager = (p.engine.manager.process e p.shared.control.recording).manager := by
  rw [feed_eq]

theorem countOutcome_eq (outcome : Outcome) (s : Shared) :
    countOutcome outcome s = s.setInflow { s.inflow with
      outOfBounds := s.counters.outOfBounds + .ofNat ([outcome].count .outOfBounds) } := by
  cases outcome with
  | outOfBounds => rfl
  | _ =>
    rw [List.count_singleton, if_neg (by decide)]
    show s = s.setInflow { s.inflow with outOfBounds := s.counters.outOfBounds + 0 }
    rw [UInt64.add_zero]
    rfl

/-! ## The latest frame -/

theorem latest_finishWindow (state : Recorder × Shared) (w : Window) :
    (finishWindow state w).2.latest = some w.publication := rfl

/-- Of the windows that are finished the last one is the latest. -/
theorem latest_foldl_finishWindow (closed : List Window) (state : Recorder × Shared) :
    (closed.foldl finishWindow state).2.latest =
      (closed.getLast?.map Window.publication).or state.2.latest := by
  induction closed generalizing state with
  | nil => rfl
  | cons w rest ih =>
    rw [List.foldl_cons, ih, latest_finishWindow, List.getLast?_cons]
    cases rest.getLast? <;> rfl

@[simp] theorem latest_countOutcome (outcome : Outcome) (s : Shared) :
    (countOutcome outcome s).latest = s.latest := by
  cases outcome <;> rfl

theorem latest_feed (p : Pipeline) (e : Event) :
    (p.feed e).shared.latest =
      ((p.engine.manager.process e p.shared.control.recording).closed.toList.getLast?.map Window.publication).or
        p.shared.latest := by
  rw [feed_eq, latest_countOutcome, latest_foldl_finishWindow]

/-! ## A whole stream -/

/-- What can be seen of the work of an engine. -/
structure Result where
  closed : List Window
  manager : WindowManager
  latest : LatestFrame
  files : FileTree
  events : UInt64
  outOfBounds : UInt64
  windows : UInt64
  recorded : UInt64
  failures : UInt64

/-- What feeding the events one after the other leaves, when `closed` are the windows closed before and
`uncounted` events have not been counted yet. -/
def forecast (closed : List Window) (uncounted : Nat) (events : List Event) (p : Pipeline) : Result :=
  let run := p.engine.manager.processAll (events.map (·, p.shared.control.recording))
  let s := (run.closed.foldl finishWindow (p.engine.recorder, p.shared)).2
  { closed := closed ++ run.closed
    manager := run.manager
    latest := s.latest
    files := s.files
    events := s.counters.events + .ofNat uncounted
    outOfBounds := s.counters.outOfBounds + .ofNat (run.outcomes.count .outOfBounds)
    windows := s.counters.windows
    recorded := s.counters.recorded
    failures := s.counters.failures }

/-- What feeding a whole stream leaves, after the resets that are pending. -/
def sequential (events : List Event) (p : Pipeline) : Result := p.applyResets.forecast [] events.length events

/-- The queue and the counters of batches have no part in the forecast, and events count the same before
and after they are counted. -/
theorem forecast_setInflow (i : Inflow) {n n' : Nat} (p : Pipeline)
    (hevents : i.events + .ofNat n' = p.shared.counters.events + .ofNat n)
    (hoff : i.outOfBounds = p.shared.counters.outOfBounds) (closed : List Window) (events : List Event) :
    forecast closed n' events { p with shared := p.shared.setInflow i } = p.forecast closed n events := by
  have hin := inflow_foldl_finishWindow
    (p.engine.manager.processAll (events.map (·, p.shared.control.recording))).closed p.engine.recorder p.shared
  have he := congrArg Inflow.events hin
  have ho := congrArg Inflow.outOfBounds hin
  simp only [Shared.inflow] at he ho
  simp only [forecast]
  rw [foldl_finishWindow_setInflow, he, ho, ← hevents, ← hoff]
  rfl

/-- The forecast is the same before and after an event. -/
theorem forecast_feed (closed : List Window) (n : Nat) (e : Event) (rest : List Event) (p : Pipeline) :
    (p.feed e).forecast (closed ++ (p.engine.manager.process e p.shared.control.recording).closed.toList) n rest =
      p.forecast closed n (e :: rest) := by
  simp only [forecast, control_feed, List.map_cons, WindowManager.processAll]
  rw [feed_eq]
  dsimp only
  generalize p.engine.manager.process e p.shared.control.recording = step
  generalize step.manager.processAll (rest.map (·, p.shared.control.recording)) = run
  rw [List.foldl_append, List.append_assoc]
  generalize step.closed.toList.foldl finishWindow (p.engine.recorder, p.shared) = finished
  obtain ⟨recorder, s⟩ := finished
  have hin := inflow_foldl_finishWindow run.closed recorder s
  have he := congrArg Inflow.events hin
  have ho := congrArg Inflow.outOfBounds hin
  simp only [Shared.inflow] at he ho
  have hoff : s.counters.outOfBounds + .ofNat ([step.outcome].count .outOfBounds) +
      .ofNat (run.outcomes.count .outOfBounds) =
      s.counters.outOfBounds + .ofNat ((step.outcome :: run.outcomes).count .outOfBounds) := by
    rw [UInt64.add_assoc, ← UInt64.ofNat_add, ← List.count_append]
    rfl
  rw [countOutcome_eq, foldl_finishWindow_setInflow, he, ho, ← hoff]
  rfl

end Pipeline

end EventCamera
