import EventCamera.Proofs.Engine.Feeding
import EventCamera.Proofs.Window.Origins
/-!
# The engine in atomic steps

`Pipeline.round` in the steps between which the console and the camera may act: each read or write of
the control state, each attempt at the queue, each event. A `Worker` stands between two steps and keeps
a trace of its windows. `Worker.did_of_step?`: what a step can do. `Worker.steps_round`: without interference the steps
make up a round. `Worker.exact_step?`: with any interference the trace stays exact.
-/

namespace EventCamera

namespace Pipeline

/-! ## Resets -/

theorem applyReset_eq (p : Pipeline) :
    p.applyReset = { p with
      shared.control := { p.shared.control with resetRequested := false }
      engine.manager :=
        if p.shared.control.resetRequested then p.engine.manager.setGeometry p.shared.control.geometry
        else p.engine.manager } := by
  cases h : p.shared.control.resetRequested <;> simp [applyReset, Control.takeReset, Control.geometry, h]

theorem applyRecordingReset_eq (p : Pipeline) :
    p.applyRecordingReset = { p with
      shared.control := { p.shared.control with recordingResetRequested := false }
      engine.recorder := if p.shared.control.recordingResetRequested then .new else p.engine.recorder } := by
  cases h : p.shared.control.recordingResetRequested <;>
    simp [applyRecordingReset, Control.takeRecordingReset, h]

theorem applyResets_eq (p : Pipeline) :
    p.applyResets =
      let c := p.shared.control
      { shared := { p.shared with control := { c with resetRequested := false, recordingResetRequested := false } }
        engine :=
          { manager := if c.resetRequested then p.engine.manager.setGeometry c.geometry else p.engine.manager
            recorder := if c.recordingResetRequested then .new else p.engine.recorder } } := by
  rw [applyResets, applyReset_eq, applyRecordingReset_eq]

end Pipeline

/-! ## Steps -/

/-- What the engine does next. `inHand` is the batch it has taken and not yet begun. -/
inductive Phase where
  /-- See whether the program still runs. -/
  | head
  | takeReset (inHand : Option Batch)
  | readWidth (inHand : Option Batch)
  | readHeight (inHand : Option Batch) (width : UInt32)
  | takeRecordingReset (inHand : Option Batch)
  | pop
  /-- Compare the session of a batch with the current one. -/
  | check (b : Batch)
  | feed (session : SessionId) (rest : List Event)
  | stopped
  deriving DecidableEq, Repr

namespace Phase

/-- The batch that the engine has taken and not yet counted. -/
def batch? : Phase → Option Batch
  | takeReset inHand | readWidth inHand | readHeight inHand _ | takeRecordingReset inHand => inHand
  | check b => some b
  | head | pop | feed _ _ | stopped => none

/-- The events of the batch in progress that the engine has still to feed. -/
def rest : Phase → List Event
  | feed _ rest => rest
  | _ => []

/-- Whether a batch is in progress, past its resets. -/
def inBatch : Phase → Bool
  | .check _ | .feed _ _ => true
  | _ => false

/-- Whether the engine next goes on to another phase and does nothing else, if no batch is there to be taken. -/
def isPassing : Phase → Bool
  | head | takeReset _ | readWidth _ | pop | feed _ [] => true
  | readHeight _ _ | takeRecordingReset _ | check _ | feed _ (_ :: _) | stopped => false

theorem ne_of_isPassing {phase phase' : Phase} (h : phase.isPassing = true) (h' : phase'.isPassing = false) :
    phase ≠ phase' := by
  rintro rfl
  rw [h] at h'
  cases h'

end Phase

/-- The engine between two steps. -/
structure Worker where
  pipeline : Pipeline
  phase : Phase
  trace : Trace

namespace Worker

/-- An engine that has seen nothing. -/
def start (length : WindowLength) (s : Shared) : Worker := ⟨.start length s, .head, .empty⟩

/-- The next step; `none` if the engine has to wait at the queue or has stopped. -/
def step? : Worker → Option Worker
  | ⟨p, .head, trace⟩ => some ⟨p, if p.shared.control.running then .takeReset none else .stopped, trace⟩
  | ⟨p, .takeReset inHand, trace⟩ =>
    let (pending, control) := p.shared.control.takeReset
    some ⟨{ p with shared.control := control },
      if pending then .readWidth inHand else .takeRecordingReset inHand, trace⟩
  | ⟨p, .readWidth inHand, trace⟩ => some ⟨p, .readHeight inHand p.shared.control.width, trace⟩
  | ⟨p, .readHeight inHand width, trace⟩ =>
    let g : Geometry := ⟨width, p.shared.control.height⟩
    some ⟨{ p with engine.manager := p.engine.manager.setGeometry g }, .takeRecordingReset inHand, trace.reset⟩
  | ⟨p, .takeRecordingReset none, trace⟩ => some ⟨p.applyRecordingReset, .pop, trace⟩
  | ⟨p, .takeRecordingReset (some b), trace⟩ => some ⟨p.applyRecordingReset, .check b, trace⟩
  | ⟨p, .pop, trace⟩ =>
    match p.shared.pop? with
    | none => none
    | some (none, s) => some ⟨{ p with shared := s }, .stopped, trace⟩
    | some (some b, s) => some ⟨{ p with shared := s }, .takeReset (some b), trace⟩
  | ⟨p, .check b, trace⟩ =>
    if b.session = p.shared.control.session then
      some ⟨p.change (·.count (.addEvents b.size.toUInt64)), .feed b.session b.events, trace⟩
    else some ⟨p.change (·.count (.addDropped 1)), .head, trace⟩
  | ⟨p, .feed _ [], trace⟩ => some ⟨p, .head, trace⟩
  | ⟨p, .feed session (e :: rest), trace⟩ =>
    some ⟨p.feed e, .feed session rest,
      trace.feed (p.engine.manager.process e p.shared.control.recording) ⟨session, e⟩⟩
  | ⟨_, .stopped, _⟩ => none

def Next (w w' : Worker) : Prop := w.step? = some w'

/-- What a step of the engine does. -/
inductive Did (w : Worker) : Worker → Prop
  /-- It goes on, and may take a request for a reset on the way. -/
  | passed {phase : Phase} {reset : Bool} (hpassing : w.phase.isPassing = true)
      (hbatch : phase.batch? = w.phase.batch?) (hrest : phase.rest = w.phase.rest) (hbetween : phase.inBatch = false) :
      Did w ⟨{ w.pipeline with shared.control.resetRequested := reset }, phase, w.trace⟩
  /-- It takes over the size that it has read, and drops the current window. -/
  | dropped {inHand : Option Batch} {width : UInt32} (hphase : w.phase = .readHeight inHand width) :
      Did w ⟨{ w.pipeline with
          engine.manager := w.pipeline.engine.manager.setGeometry ⟨width, w.pipeline.shared.control.height⟩ },
        .takeRecordingReset inHand, w.trace.reset⟩
  /-- It takes a request for new numbers, if there is one. -/
  | renumbered {inHand : Option Batch} (hphase : w.phase = .takeRecordingReset inHand) :
      Did w ⟨w.pipeline.applyRecordingReset, inHand.elim .pop .check, w.trace⟩
  /-- It takes a batch. -/
  | took {b : Batch} {rest : List Batch} (hphase : w.phase = .pop)
      (hr : w.pipeline.shared.control.running = true) (hb : w.pipeline.shared.queue.batches = b :: rest) :
      Did w ⟨{ w.pipeline with shared.queue.batches := rest }, .takeReset (some b), w.trace⟩
  /-- It begins the batch in hand. -/
  | began {b : Batch} (hphase : w.phase = .check b) (hb : b.session = w.pipeline.shared.control.session) :
      Did w ⟨w.pipeline.change (·.count (.addEvents b.size.toUInt64)), .feed b.session b.events, w.trace⟩
  /-- It throws the batch in hand away. -/
  | turnedAway {b : Batch} (hphase : w.phase = .check b) (hb : b.session ≠ w.pipeline.shared.control.session) :
      Did w ⟨w.pipeline.change (·.count (.addDropped 1)), .head, w.trace⟩
  /-- It feeds an event. -/
  | fed {session : SessionId} {e : Event} {rest : List Event} (hphase : w.phase = .feed session (e :: rest)) :
      Did w ⟨w.pipeline.feed e, .feed session rest,
        w.trace.feed (w.pipeline.engine.manager.process e w.pipeline.shared.control.recording) ⟨session, e⟩⟩

theorem did_of_step? {w w' : Worker} (h : w.step? = some w') : w.Did w' := by
  obtain ⟨p, phase, trace⟩ := w
  cases phase with
  | head =>
    cases h
    refine .passed rfl ?_ ?_ ?_ <;> split <;> rfl
  | takeReset inHand =>
    cases h
    refine .passed rfl ?_ ?_ ?_ <;> split <;> rfl
  | readWidth inHand =>
    cases h
    exact .passed rfl rfl rfl rfl
  | readHeight inHand width =>
    cases h
    exact .dropped rfl
  | takeRecordingReset inHand =>
    have hdid : Did ⟨p, .takeRecordingReset inHand, trace⟩
        ⟨p.applyRecordingReset, inHand.elim .pop .check, trace⟩ := .renumbered rfl
    cases inHand <;> cases h <;> exact hdid
  | pop =>
    rcases p.shared.pop?_cases with ⟨-, -, hp⟩ | ⟨b, rest, hr, hb, hp⟩ | ⟨-, hp⟩ <;>
      simp only [step?, hp] at h <;> cases h
    · exact .took rfl hr hb
    · exact .passed rfl rfl rfl rfl
  | check b =>
    by_cases hb : b.session = p.shared.control.session <;> simp only [step?, hb, if_true, if_false] at h <;> cases h
    · exact hb ▸ .began rfl hb
    · exact .turnedAway rfl hb
  | feed session rest =>
    cases rest with
    | nil =>
      cases h
      exact .passed rfl rfl rfl rfl
    | cons e rest =>
      cases h
      exact .fed rfl
  | stopped => cases h

/-- Some number of steps without interference. -/
abbrev Steps : Worker → Worker → Prop := Relation.ReflTransGen Next

/-! ## Steps and rounds -/

/-- Both resets are taken one after the other. -/
theorem steps_applyResets (p : Pipeline) (inHand : Option Batch) (trace : Trace) :
    ∃ trace', Steps ⟨p, .takeReset inHand, trace⟩
      ⟨p.applyResets, inHand.elim .pop .check, trace'⟩ := by
  have hlast : ∀ p trace, Steps ⟨p, .takeRecordingReset inHand, trace⟩
      ⟨p.applyRecordingReset, inHand.elim .pop .check, trace⟩ := by
    intro p trace
    cases inHand <;> exact .single rfl
  rw [Pipeline.applyResets, Pipeline.applyReset_eq]
  cases hr : p.shared.control.resetRequested with
  | false =>
    have htake : Next ⟨p, .takeReset inHand, trace⟩
        ⟨{ p with shared.control := p.shared.control.takeReset.2 }, .takeRecordingReset inHand, trace⟩ := by
      simp [Next, step?, Control.takeReset, hr]
    exact ⟨trace, .head htake (hlast _ _)⟩
  | true =>
    have htake : Next ⟨p, .takeReset inHand, trace⟩
        ⟨{ p with shared.control := p.shared.control.takeReset.2 }, .readWidth inHand, trace⟩ := by
      simp [Next, step?, Control.takeReset, hr]
    exact ⟨trace.reset, .head htake (.head rfl (.head rfl (hlast _ _)))⟩

theorem steps_feed (session : SessionId) (events : List Event) (p : Pipeline) (trace : Trace) :
    ∃ trace', Steps ⟨p, .feed session events, trace⟩ ⟨events.foldl Pipeline.feed p, .head, trace'⟩ := by
  induction events generalizing p trace with
  | nil => exact ⟨trace, .single rfl⟩
  | cons e rest ih =>
    obtain ⟨trace', hrest⟩ := ih (p.feed e)
      (trace.feed (p.engine.manager.process e p.shared.control.recording) ⟨session, e⟩)
    exact ⟨trace', .head rfl hrest⟩

theorem steps_processBatch (b : Batch) (p : Pipeline) (trace : Trace) :
    ∃ trace', Steps ⟨p, .takeReset (some b), trace⟩ ⟨p.processBatch b, .head, trace'⟩ := by
  obtain ⟨trace₁, hresets⟩ := steps_applyResets p (some b) trace
  by_cases hs : b.session = p.applyResets.shared.control.session
  · obtain ⟨trace₂, hfeed⟩ := steps_feed b.session b.events
      (p.applyResets.change (·.count (.addEvents b.size.toUInt64))) trace₁
    have hcheck : Next ⟨p.applyResets, .check b, trace₁⟩
        ⟨p.applyResets.change (·.count (.addEvents b.size.toUInt64)), .feed b.session b.events, trace₁⟩ := by
      simp [Next, step?, hs]
    have hbatch : p.processBatch b =
        b.events.foldl Pipeline.feed (p.applyResets.change (·.count (.addEvents b.size.toUInt64))) := by
      simp [Pipeline.processBatch, hs]
    exact ⟨trace₂, hresets.trans (.head hcheck (hbatch ▸ hfeed))⟩
  · have hcheck : Next ⟨p.applyResets, .check b, trace₁⟩ ⟨p.processBatch b, .head, trace₁⟩ := by
      simp [Next, step?, Pipeline.processBatch, hs]
    exact ⟨trace₁, hresets.trans (.single hcheck)⟩

/-- Where the engine stands after a round. -/
def after : Pipeline.Round → Phase
  | .waits => .pop
  | .stopped => .stopped
  | .processed => .head

/-- Without interference the steps of a running engine make up a round. -/
theorem steps_round (p : Pipeline) (trace : Trace) (h : p.shared.control.running = true) :
    ∃ trace', Steps ⟨p, .head, trace⟩ ⟨p.round.2, after p.round.1, trace'⟩ := by
  obtain ⟨trace₁, hresets⟩ := steps_applyResets p none trace
  have hhead : Next ⟨p, .head, trace⟩ ⟨p, .takeReset none, trace⟩ := by simp [Next, step?, h]
  have hpop : Steps ⟨p, .head, trace⟩ ⟨p.applyResets, .pop, trace₁⟩ := .head hhead hresets
  rcases p.applyResets.shared.pop?_cases with ⟨-, -, hp⟩ | ⟨b, rest, -, -, hp⟩ | ⟨-, hp⟩
  · have hround : p.round = (.waits, p.applyResets) := by simp [Pipeline.round, hp]
    exact ⟨trace₁, hround ▸ hpop⟩
  · have hround : p.round = (.processed, Pipeline.processBatch b { p.applyResets with
        shared.queue.batches := rest }) := by
      simp [Pipeline.round, hp]
    have htake : Next ⟨p.applyResets, .pop, trace₁⟩
        ⟨{ p.applyResets with shared.queue.batches := rest }, .takeReset (some b), trace₁⟩ := by
      simp [Next, step?, hp]
    obtain ⟨trace₂, hbatch⟩ := steps_processBatch b { p.applyResets with shared.queue.batches := rest } trace₁
    exact ⟨trace₂, hround ▸ hpop.trans (.head htake hbatch)⟩
  · have hround : p.round = (.stopped, p.applyResets) := by simp [Pipeline.round, hp]
    have hstop : Next ⟨p.applyResets, .pop, trace₁⟩ ⟨p.applyResets, .stopped, trace₁⟩ := by
      simp [Next, step?, hp]
    exact ⟨trace₁, hround ▸ hpop.tail hstop⟩

/-! ## What a step leaves alone -/

/-- The engine only takes requests and batches. -/
theorem frame_step? {w w' : Worker} (h : w.step? = some w') :
    (∃ reset recordingReset, w'.pipeline.shared.control = { w.pipeline.shared.control with
      resetRequested := reset, recordingResetRequested := recordingReset }) ∧
    w'.pipeline.shared.queue.batches ⊆ w.pipeline.shared.queue.batches ∧
    w'.pipeline.shared.queue.capacity = w.pipeline.shared.queue.capacity := by
  cases did_of_step? h with
  | renumbered =>
    rw [Pipeline.applyRecordingReset_eq]
    exact ⟨⟨_, _, rfl⟩, List.Subset.refl _, rfl⟩
  | took hphase hr hb => exact ⟨⟨_, _, rfl⟩, by simp [hb], rfl⟩
  | fed =>
    rw [Pipeline.control_feed, Pipeline.queue_feed]
    exact ⟨⟨_, _, rfl⟩, List.Subset.refl _, rfl⟩
  | _ => exact ⟨⟨_, _, rfl⟩, List.Subset.refl _, rfl⟩

variable {w w' : Worker}

theorem running_step? (h : w.step? = some w') :
    w'.pipeline.shared.control.running = w.pipeline.shared.control.running := by
  obtain ⟨⟨reset, recordingReset, hc⟩, -⟩ := frame_step? h
  rw [hc]

theorem acquisition_step? (h : w.step? = some w') :
    w'.pipeline.shared.control.acquisition = w.pipeline.shared.control.acquisition := by
  obtain ⟨⟨reset, recordingReset, hc⟩, -⟩ := frame_step? h
  rw [hc]

theorem session_step? (h : w.step? = some w') :
    w'.pipeline.shared.control.session = w.pipeline.shared.control.session := by
  obtain ⟨⟨reset, recordingReset, hc⟩, -⟩ := frame_step? h
  rw [hc]

/-! ## Exact traces -/

/-- The trace is exact for the windows of the engine. -/
def Exact (w : Worker) : Prop := w.trace.Shows w.pipeline.engine.manager

theorem exact_start (length : WindowLength) (s : Shared) : (start length s).Exact :=
  Trace.shows_new length s.control.geometry

/-- Every step keeps the trace exact. -/
theorem exact_step? (hw : w.Exact) (h : w.step? = some w') : w'.Exact := by
  cases did_of_step? h with
  | dropped => exact hw.setGeometry _
  | renumbered =>
    rw [Exact, Pipeline.applyRecordingReset_eq]
    exact hw
  | @fed session e rest =>
    rw [Exact, Pipeline.manager_feed]
    exact hw.process ⟨session, e⟩ _
  | _ => exact hw

end Worker

end EventCamera
