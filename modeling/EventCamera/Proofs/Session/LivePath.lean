import EventCamera.Proofs.Session.Display
/-!
# Recording never disturbs the live path

An engine in operation, between whose steps others write to the control state, push batches, clear the queue and do
whatever they like with the files. An event is taken in several steps here, since the recording directory and the files
may change between two windows that it closes; without interference they make up one step of the engine's `Worker`
(`steps_of_next`), and so the steps make up rounds (`steps_round`).

`unrecorded` leaves out everything that has to do with recording. It commutes with every step of the engine and with
everything that others do (`unrecorded_step?`, `unrecorded_act`), so that an operation leaves, up to recording, what the
operation leaves in which nothing is ever recorded (`unrecorded_run`).
-/

namespace EventCamera

/-! ## Leaving recording out -/

/-- The window as it is when nothing is recorded. -/
def Window.unrecorded (w : Window) : Window := { w with events := #[], recording := false }

def WindowManager.unrecorded (m : WindowManager) : WindowManager :=
  { m with current := m.current.map Window.unrecorded }

def WindowManager.Step.unrecorded (step : WindowManager.Step) : WindowManager.Step :=
  ⟨step.closed.map Window.unrecorded, step.outcome, step.manager.unrecorded⟩

/-- The shared state with the recording switched off, no file, and no count of files. -/
def Shared.unrecorded (s : Shared) : Shared :=
  { s with
    control := { s.control with recording := false, recordingResetRequested := false, recordingDir := none }
    counters := { s.counters with recorded := 0, failures := 0 }
    files := .empty
    clock := default }

def Pipeline.unrecorded (p : Pipeline) : Pipeline := ⟨p.shared.unrecorded, ⟨p.engine.manager.unrecorded, .new⟩⟩

/-! ## Windows -/

namespace Window

variable {d : WindowLength} {recording : Bool}

theorem unrecorded_fresh (d : WindowLength) (g : Geometry) (index : UInt64) (start : Timestamp) (recording : Bool) :
    (fresh d g index start recording).unrecorded = fresh d g index start false := rfl

theorem unrecorded_advance (w : Window) : (w.advance d recording).unrecorded = w.unrecorded.advance d false := rfl

theorem unrecorded_add (e : Event) (w : Window) :
    w.unrecorded.add e = ((w.add e).1, (w.add e).2.unrecorded) := by
  simp only [add, unrecorded]
  split <;> rfl

theorem unrecorded_closePast (t : Timestamp) (w : Window) (closed : Array Window) :
    w.unrecorded.closePast d false t (closed.map unrecorded) =
      ((w.closePast d recording t closed).1.map unrecorded, (w.closePast d recording t closed).2.unrecorded) := by
  induction w, closed using closePast.induct d recording t with
  | case1 w closed h ih =>
    rw [closePast_of_closes closed h, closePast_of_closes _ (w := w.unrecorded) h, ← unrecorded_advance, ← ih,
      Array.map_push]
  | case2 w closed h =>
    rw [closePast_of_not_closes closed h, closePast_of_not_closes _ (w := w.unrecorded) h]

end Window

namespace WindowManager

/-- The windows that an event at time `t` closes, and the window it falls into. -/
def reach (t : Timestamp) (recording : Bool) (m : WindowManager) : Array Window × Window :=
  match m.current with
  | some w => w.closePast m.length recording t #[]
  | none => (#[], .fresh m.length m.geometry m.nextIndex t recording)

theorem process_of_not_isEmpty {m : WindowManager} (h : m.geometry.isEmpty = false) (e : Event) (recording : Bool) :
    m.process e recording =
      let (closed, reached) := m.reach e.t recording
      ⟨closed, if (reached.add e).1 then .accepted else .outOfBounds,
        { m with current := some (reached.add e).2, nextIndex := reached.index + 1 }⟩ := by
  obtain ⟨length, geometry, current, nextIndex⟩ := m
  simp only [process, if_neg (Bool.eq_false_iff.1 h)]
  rfl

theorem unrecorded_reach (t : Timestamp) (recording : Bool) (m : WindowManager) :
    m.unrecorded.reach t false =
      ((m.reach t recording).1.map Window.unrecorded, (m.reach t recording).2.unrecorded) := by
  obtain ⟨length, geometry, current, nextIndex⟩ := m
  cases current with
  | none => simp [reach, unrecorded, Window.unrecorded_fresh]
  | some w => simpa [reach, unrecorded] using Window.unrecorded_closePast t w #[]

/-- An event does the same to the windows whether they are recorded or not. -/
theorem unrecorded_process (e : Event) (recording : Bool) (m : WindowManager) :
    m.unrecorded.process e false = (m.process e recording).unrecorded := by
  cases hg : m.geometry.isEmpty with
  | true => rw [process_of_isEmpty hg, process_of_isEmpty (m := m.unrecorded) hg, Step.unrecorded, Array.map_empty]
  | false =>
    rw [process_of_not_isEmpty hg, process_of_not_isEmpty (m := m.unrecorded) hg, unrecorded_reach e.t recording]
    dsimp only
    rw [Window.unrecorded_add]
    rfl

end WindowManager

/-! ## Finished windows -/

namespace Pipeline

theorem unrecorded_recordWindow (w : Window) (recorder : Recorder) (s : Shared) :
    (recordWindow w (recorder, s)).2.unrecorded = s.unrecorded := by
  rcases recordWindow_cases w recorder s with ⟨-, h⟩ | ⟨-, -, h⟩ | ⟨_, _, _, _, -, -, -, h⟩ |
      ⟨_, _, _, _, -, -, -, h⟩ <;>
    rw [h] <;> rfl

/-- Whatever becomes of its file, a closed window is published and counted. -/
theorem unrecorded_finishWindow (w : Window) (recorder : Recorder) (s : Shared) :
    finishWindow (.new, s.unrecorded) w.unrecorded = (.new, (finishWindow (recorder, s) w).2.unrecorded) := by
  have hnone : recordWindow w.unrecorded (.new, s.unrecorded) = (.new, s.unrecorded) := rfl
  rw [finishWindow_eq, finishWindow_eq, hnone, ← unrecorded_recordWindow w recorder s]
  rfl

theorem unrecorded_applyRecordingReset (p : Pipeline) :
    p.unrecorded.applyRecordingReset = p.applyRecordingReset.unrecorded := by
  rw [applyRecordingReset_eq, applyRecordingReset_eq]
  rfl

end Pipeline

namespace Shared

theorem unrecorded_push? (b : Batch) (s : Shared) :
    s.unrecorded.push? b = (s.push? b).map fun (outcome, s) => (outcome, s.unrecorded) := by
  have h : s.unrecorded.queue.push? s.unrecorded.control b = s.queue.push? s.control b := rfl
  rw [push?, h, push?]
  rcases s.queue.push? s.control b with _ | ⟨_ | _, queue⟩ <;> rfl

theorem unrecorded_pop? (s : Shared) :
    s.unrecorded.pop? = s.pop?.map fun (batch, s) => (batch, s.unrecorded) := by
  have h : s.unrecorded.queue.pop? s.unrecorded.control = s.queue.pop? s.control := rfl
  rw [pop?, h, pop?]
  rcases s.queue.pop? s.control with _ | ⟨_, queue⟩ <;> rfl

end Shared

/-! ## Steps of the engine -/

namespace Worker

def unrecorded (w : Worker) : Worker := { w with pipeline := w.pipeline.unrecorded }

theorem unrecorded_step? {w : Worker} (h : ∀ session e rest, w.phase ≠ .feed session (e :: rest)) :
    w.unrecorded.step? = w.step?.map unrecorded := by
  obtain ⟨p, phase, trace⟩ := w
  cases phase with
  | head => rfl
  | takeReset inHand => rfl
  | readWidth inHand => rfl
  | readHeight inHand width => rfl
  | takeRecordingReset inHand =>
    cases inHand <;> simp only [step?, unrecorded, Option.map_some, Pipeline.unrecorded_applyRecordingReset]
  | pop =>
    have hp : p.unrecorded.shared.pop? = p.shared.pop?.map fun (batch, s) => (batch, s.unrecorded) :=
      p.shared.unrecorded_pop?
    simp only [step?, unrecorded, hp]
    rcases p.shared.pop? with _ | ⟨_ | b, s⟩ <;> rfl
  | check b =>
    have hs : p.unrecorded.shared.control.session = p.shared.control.session := rfl
    simp only [step?, unrecorded, hs]
    split <;> rfl
  | feed session rest =>
    cases rest with
    | nil => rfl
    | cons e rest => exact absurd rfl (h session e rest)
  | stopped => rfl

end Worker

/-! ## An engine in operation -/

/-- Where the engine stands. -/
inductive Stage where
  /-- Not in the middle of an event. -/
  | between (phase : Phase)
  /-- Some of the windows that an event has closed are still to be finished. -/
  | finishing (session : SessionId) (rest : List Event) (outcome : Outcome) (closed : List Window)

/-- What the engine has put out so far. -/
structure Output where
  outcomes : List Outcome
  closed : List Window
  published : List Published

/-- An engine at work, and what it has put out. -/
structure Operation where
  pipeline : Pipeline
  stage : Stage
  output : Output

namespace Operation

/-- An engine that has seen nothing. -/
def start (length : WindowLength) (s : Shared) : Operation := ⟨.start length s, .between .head, ⟨[], [], []⟩⟩

/-- The next step; `none` if the engine has to wait at the queue or has stopped. -/
def step? : Operation → Option Operation
  | ⟨p, .between (.feed session (e :: rest)), output⟩ =>
    let step := p.engine.manager.process e p.shared.control.recording
    some ⟨{ p with engine.manager := step.manager }, .finishing session rest step.outcome step.closed.toList, output⟩
  | ⟨p, .between phase, output⟩ =>
    (Worker.step? ⟨p, phase, .empty⟩).map fun w => ⟨w.pipeline, .between w.phase, output⟩
  | ⟨⟨s, engine⟩, .finishing session rest outcome (w :: closed), output⟩ =>
    let (recorder, s) := Pipeline.finishWindow (engine.recorder, s) w
    some ⟨⟨s, { engine with recorder }⟩, .finishing session rest outcome closed,
      { output with closed := output.closed ++ [w], published := output.published ++ s.latest.toList }⟩
  | ⟨p, .finishing session rest outcome [], output⟩ =>
    some ⟨p.change (Pipeline.countOutcome outcome), .between (.feed session rest),
      { output with outcomes := output.outcomes ++ [outcome] }⟩

/-- Either an event comes next, or the engine takes a step of its worker. -/
theorem feeds_or_not (phase : Phase) :
    (∃ session e rest, phase = .feed session (e :: rest)) ∨ ∀ session e rest, phase ≠ .feed session (e :: rest) := by
  by_cases h : ∃ session e rest, phase = .feed session (e :: rest)
  · exact .inl h
  · exact .inr fun session e rest he => h ⟨session, e, rest, he⟩

theorem step?_between {p : Pipeline} {phase : Phase} {output : Output}
    (h : ∀ session e rest, phase ≠ .feed session (e :: rest)) :
    step? ⟨p, .between phase, output⟩ =
      (Worker.step? ⟨p, phase, .empty⟩).map fun w => ⟨w.pipeline, .between w.phase, output⟩ := by
  rw [step?]
  exact h

end Operation

/-- What happens next while an engine is in operation. -/
inductive Happening where
  /-- The engine takes its next step, if it does not have to wait. -/
  | engine
  | write (w : Control.Write)
  /-- The camera tries to push a batch. -/
  | push (b : Batch)
  | clear
  /-- Others change the files, as they like. -/
  | files (tree : FileTree)

/-- Whether the write has to do with recording only. -/
def Control.Write.aboutRecording : Write → Bool
  | .recording _ | .requestRecordingReset | .recordingDir _ => true
  | .shutdown | .acquisition _ | .requestReset | .beginSession | .width _ | .height _ => false

/-- Whether it has to do with recording only: its flag, its directory, its numbers, its files. -/
def Happening.aboutRecording : Happening → Bool
  | write w => w.aboutRecording
  | files _ => true
  | engine | push _ | clear => false

namespace Operation

def change (f : Shared → Shared) (x : Operation) : Operation := { x with pipeline := x.pipeline.change f }

def act (x : Operation) : Happening → Operation
  | .engine => x.step?.getD x
  | .write w => x.change (·.write [w])
  | .push b =>
    match x.pipeline.shared.push? b with
    | none => x
    | some (_, s) => x.change fun _ => s
  | .clear => x.change (·.clearQueue.2)
  | .files tree => x.change fun s => { s with files := tree }

def run (x : Operation) (history : List Happening) : Operation := history.foldl act x

/-! ## Steps without interference -/

def Next (x x' : Operation) : Prop := x.step? = some x'

abbrev Steps : Operation → Operation → Prop := Relation.ReflTransGen Next

/-- The windows that an event has closed are finished one after the other. -/
theorem steps_finishing (session : SessionId) (rest : List Event) (outcome : Outcome) (closed : List Window)
    (manager : WindowManager) (recorder : Recorder) (s : Shared) (output : Output) :
    Steps ⟨⟨s, ⟨manager, recorder⟩⟩, .finishing session rest outcome closed, output⟩
      ⟨⟨(closed.foldl Pipeline.finishWindow (recorder, s)).2,
          ⟨manager, (closed.foldl Pipeline.finishWindow (recorder, s)).1⟩⟩,
        .finishing session rest outcome [],
        { output with
          closed := output.closed ++ closed
          published := output.published ++ closed.map Window.publication }⟩ := by
  induction closed generalizing recorder s output with
  | nil =>
    rw [List.append_nil, List.map_nil, List.append_nil]
    exact .refl
  | cons w closed ih =>
    obtain ⟨recorder', s', hw⟩ : ∃ recorder' s', Pipeline.finishWindow (recorder, s) w = (recorder', s') := ⟨_, _, rfl⟩
    have hlatest : s'.latest = some w.publication := by
      rw [← Pipeline.latest_finishWindow (recorder, s) w, hw]
    have hfirst : Next ⟨⟨s, ⟨manager, recorder⟩⟩, .finishing session rest outcome (w :: closed), output⟩
        ⟨⟨s', ⟨manager, recorder'⟩⟩, .finishing session rest outcome closed,
          { output with closed := output.closed ++ [w], published := output.published ++ [w.publication] }⟩ := by
      rw [Next, step?, hw]
      dsimp only
      rw [hlatest]
      rfl
    have hrest := ih recorder' s'
      { output with closed := output.closed ++ [w], published := output.published ++ [w.publication] }
    rw [List.append_assoc, List.append_assoc] at hrest
    rw [List.foldl_cons, hw]
    exact .head hfirst hrest

theorem steps_feed (session : SessionId) (e : Event) (rest : List Event) (p : Pipeline) (output : Output) :
    let step := p.engine.manager.process e p.shared.control.recording
    Steps ⟨p, .between (.feed session (e :: rest)), output⟩ ⟨p.feed e, .between (.feed session rest),
      { outcomes := output.outcomes ++ [step.outcome]
        closed := output.closed ++ step.closed.toList
        published := output.published ++ step.closed.toList.map Window.publication }⟩ := by
  intro step
  have hfinish := steps_finishing session rest step.outcome step.closed.toList step.manager p.engine.recorder p.shared
    output
  have hfeed := Pipeline.feed_eq p e
  dsimp only at hfeed
  rw [hfeed]
  exact .head rfl (hfinish.tail rfl)

end Operation

namespace Worker

/-- What the engine does does not depend on the trace. -/
theorem step?_map (p : Pipeline) (phase : Phase) (trace trace' : Trace) :
    (step? ⟨p, phase, trace⟩).map (fun w => (w.pipeline, w.phase)) =
      (step? ⟨p, phase, trace'⟩).map (fun w => (w.pipeline, w.phase)) := by
  cases phase with
  | head | takeReset | readWidth | readHeight | stopped => rfl
  | takeRecordingReset inHand => cases inHand <;> rfl
  | pop =>
    simp only [step?]
    rcases p.shared.pop? with _ | ⟨_ | b, s⟩ <;> rfl
  | check b =>
    simp only [step?]
    split <;> rfl
  | feed session rest => cases rest <;> rfl

end Worker

namespace Operation

/-- Without interference the engine takes the steps of its worker. -/
theorem steps_of_next {w w' : Worker} (h : w.Next w') (output : Output) :
    ∃ output', Steps ⟨w.pipeline, .between w.phase, output⟩ ⟨w'.pipeline, .between w'.phase, output'⟩ := by
  obtain ⟨p, phase, trace⟩ := w
  rcases feeds_or_not phase with ⟨session, e, rest, rfl⟩ | hf
  · cases h
    exact ⟨_, steps_feed session e rest p output⟩
  · have hw := Worker.step?_map p phase trace .empty
    rw [show Worker.step? ⟨p, phase, trace⟩ = some w' from h] at hw
    obtain ⟨w₀, hw₀, hpair⟩ := Option.map_eq_some_iff.1 hw.symm
    obtain ⟨hpipeline, hphase⟩ := Prod.mk.inj hpair
    refine ⟨output, .single ?_⟩
    rw [Next, step?_between hf, hw₀, Option.map_some, hpipeline, hphase]

theorem steps_of_steps {w w' : Worker} (h : w.Steps w') (output : Output) :
    ∃ output', Steps ⟨w.pipeline, .between w.phase, output⟩ ⟨w'.pipeline, .between w'.phase, output'⟩ := by
  induction h with
  | refl => exact ⟨output, .refl⟩
  | tail _ h ih =>
    obtain ⟨output₁, h₁⟩ := ih
    obtain ⟨output₂, h₂⟩ := steps_of_next h output₁
    exact ⟨output₂, h₁.trans h₂⟩

/-- Without interference the steps of a running engine make up a round. -/
theorem steps_round (p : Pipeline) (output : Output) (h : p.shared.control.running = true) :
    ∃ output', Steps ⟨p, .between .head, output⟩ ⟨p.round.2, .between (Worker.after p.round.1), output'⟩ := by
  obtain ⟨_, hsteps⟩ := Worker.steps_round p .empty h
  exact steps_of_steps hsteps output

end Operation

/-! ## Leaving recording out of an operation -/

def Stage.unrecorded : Stage → Stage
  | between phase => between phase
  | finishing session rest outcome closed => finishing session rest outcome (closed.map Window.unrecorded)

namespace Operation

def unrecorded (x : Operation) : Operation :=
  ⟨x.pipeline.unrecorded, x.stage.unrecorded, { x.output with closed := x.output.closed.map Window.unrecorded }⟩

theorem unrecorded_step? (x : Operation) : x.unrecorded.step? = x.step?.map unrecorded := by
  obtain ⟨p, stage, output⟩ := x
  cases stage with
  | finishing session rest outcome closed =>
    cases closed with
    | nil => cases outcome <;> rfl
    | cons w closed =>
      have hf := Pipeline.unrecorded_finishWindow w p.engine.recorder p.shared
      simp only [step?, unrecorded, Stage.unrecorded, List.map_cons, Pipeline.unrecorded, hf, Option.map_some,
        List.map_append, List.map_nil]
      rfl
  | between phase =>
    rcases feeds_or_not phase with ⟨session, e, rest, rfl⟩ | h
    · have hp : p.unrecorded.engine.manager.process e p.unrecorded.shared.control.recording =
          (p.engine.manager.process e p.shared.control.recording).unrecorded :=
        WindowManager.unrecorded_process e _ _
      simp only [step?, unrecorded, Stage.unrecorded, hp, Option.map_some, WindowManager.Step.unrecorded,
        Array.toList_map]
      rfl
    · have hw : Worker.step? ⟨p.unrecorded, phase, .empty⟩ = (Worker.step? ⟨p, phase, .empty⟩).map Worker.unrecorded :=
        Worker.unrecorded_step? (w := ⟨p, phase, .empty⟩) h
      have hu (o : Output) : step? ⟨p.unrecorded, .between phase, o⟩ =
          (Worker.step? ⟨p, phase, .empty⟩).map fun w => ⟨w.pipeline.unrecorded, .between w.phase, o⟩ := by
        rw [step?_between h, hw, Option.map_map]
        rfl
      rw [step?_between h, Option.map_map]
      exact hu _

theorem unrecorded_act (x : Operation) (h : Happening) :
    (x.act h).unrecorded = if h.aboutRecording then x.unrecorded else x.unrecorded.act h := by
  cases h with
  | engine =>
    show (x.step?.getD x).unrecorded = x.unrecorded.step?.getD x.unrecorded
    rw [unrecorded_step?]
    cases x.step? <;> rfl
  | write w => cases w <;> rfl
  | push b =>
    have hp : x.unrecorded.pipeline.shared.push? b =
        (x.pipeline.shared.push? b).map fun (outcome, s) => (outcome, s.unrecorded) :=
      Shared.unrecorded_push? b _
    simp only [act, hp]
    rcases x.pipeline.shared.push? b with _ | ⟨outcome, s⟩ <;> rfl
  | clear => rfl
  | files tree => rfl

theorem unrecorded_start (length : WindowLength) (s : Shared) :
    (start length s).unrecorded = start length s.unrecorded := rfl

/-- What an operation leaves is, up to recording, what it leaves when nothing is ever recorded. -/
theorem unrecorded_run (x : Operation) (history : List Happening) :
    (x.run history).unrecorded = x.unrecorded.run (history.filter (!·.aboutRecording)) := by
  induction history generalizing x with
  | nil => rfl
  | cons h history ih =>
    rw [run, List.foldl_cons, ← run, ih, unrecorded_act, List.filter_cons]
    cases h.aboutRecording <;> rfl

/-! ## What can be seen of an operation -/

end Operation

/-- What can be seen of a closed window. -/
structure WindowView where
  index : UInt64
  start : Timestamp
  stop : Timestamp
  canvas : Frame
  isEmpty : Bool
  deriving DecidableEq, Repr

def Window.view (w : Window) : WindowView := ⟨w.index, w.start, w.stop, w.canvas, w.isEmpty⟩

/-- What can be seen of an engine without regard to recording. -/
structure LiveView where
  outcomes : List Outcome
  closed : List WindowView
  published : List Published
  current : Option Window
  events : UInt64
  outOfBounds : UInt64
  windows : UInt64
  dropped : UInt64
  deriving DecidableEq

namespace Operation

def liveView (x : Operation) : LiveView where
  outcomes := x.output.outcomes
  closed := x.output.closed.map Window.view
  published := x.output.published
  current := x.pipeline.engine.manager.current.map Window.unrecorded
  events := x.pipeline.shared.counters.events
  outOfBounds := x.pipeline.shared.counters.outOfBounds
  windows := x.pipeline.shared.counters.windows
  dropped := x.pipeline.shared.counters.dropped

theorem liveView_unrecorded (x : Operation) : x.unrecorded.liveView = x.liveView := by
  have hclosed : (x.output.closed.map Window.unrecorded).map Window.view = x.output.closed.map Window.view := by
    rw [List.map_map]
    rfl
  have hcurrent : (x.pipeline.engine.manager.current.map Window.unrecorded).map Window.unrecorded =
      x.pipeline.engine.manager.current.map Window.unrecorded := by
    rw [Option.map_map]
    rfl
  simp only [liveView, unrecorded, Pipeline.unrecorded, WindowManager.unrecorded, hclosed, hcurrent]
  rfl

/-- Two operations that differ in what has to do with recording only look the same: in the recording flag and the
directory at any time, in the resets of the file numbers, and in the files and all that fails with them. -/
theorem same_liveView (length : WindowLength) {s₁ s₂ : Shared} {history₁ history₂ : List Happening}
    (hs : s₁.unrecorded = s₂.unrecorded)
    (hh : history₁.filter (!·.aboutRecording) = history₂.filter (!·.aboutRecording)) :
    ((start length s₁).run history₁).liveView = ((start length s₂).run history₂).liveView := by
  have hstart : (start length s₁).unrecorded = (start length s₂).unrecorded := by
    rw [unrecorded_start, unrecorded_start, hs]
  rw [← liveView_unrecorded, unrecorded_run, hstart, hh, ← unrecorded_run, liveView_unrecorded]

/-- The windows of one operation all fail to be recorded, and in the other there are none to be recorded. -/
theorem same_liveView_without_directory :
    let history : List Happening :=
      [.write (.width 2), .write (.height 1), .write .requestReset, .write (.acquisition true),
        .push ⟨0, [⟨0, 0, .on, 0⟩, ⟨1, 0, .off, 5000⟩]⟩]
    let recording := { Shared.initial 4 with control := { Control.initial with recording := true } }
    ((start .standard recording).run (history ++ List.replicate 20 .engine)).liveView =
      ((start .standard (.initial 4)).run (history ++ .write (.recording false) :: List.replicate 20 .engine)).liveView :=
  same_liveView .standard rfl rfl

end Operation

end EventCamera
