import EventCamera.Proofs.Engine.Steps
/-!
# The result does not depend on the schedule

A camera pushes the batches of one session in order, and the engine works them off, in turns of any
order. `result_of_schedules`: however a stream of events is cut into batches, however many places the
queue has, and in whatever order the turns come, every run can be finished, and all finished runs have
the result of feeding the stream to the manager one event after the other.

A turn keeps the forecast of what the rest of the stream will leave (`outlook_turn?`), and every turn
brings the end nearer (`work_turn?`).
-/

namespace EventCamera

/-- The engine, and the batches that the camera has still to push. -/
structure Relay where
  worker : Worker
  unsent : List Batch

inductive Turn where
  | camera
  | engine
  deriving DecidableEq, Repr

namespace Relay

/-- An engine before its round with an empty queue, and a stream cut into batches of a session. -/
def start (capacity : Nat) (session : SessionId) (cut : List (List Event)) (p : Pipeline) : Relay :=
  ⟨⟨{ p with shared.queue := .new capacity }, .head, .empty⟩, cut.map (⟨session, ·⟩)⟩

/-- A turn; `none` if the party has to wait or has nothing left to do. -/
def turn? (r : Relay) : Turn → Option Relay
  | .camera =>
    match r.unsent with
    | [] => none
    | b :: rest =>
      match r.worker.pipeline.shared.push? b with
      | none => none
      | some (_, s) => some ⟨{ r.worker with pipeline.shared := s }, rest⟩
  | .engine => r.worker.step?.map (⟨·, r.unsent⟩)

/-- Turns one after the other. One that is not possible is passed over. -/
def run (r : Relay) (turns : List Turn) : Relay := turns.foldl (fun r t => (r.turn? t).getD r) r

/-- No turn is possible any more. -/
def Finished (r : Relay) : Prop := (r.turn? .camera).isNone ∧ (r.turn? .engine).isNone

instance (r : Relay) : Decidable r.Finished := inferInstanceAs (Decidable (_ ∧ _))

/-- What can be seen of the engine's work so far. -/
def result (r : Relay) : Pipeline.Result :=
  let s := r.worker.pipeline.shared
  { closed := r.worker.trace.windows
    manager := r.worker.pipeline.engine.manager
    latest := s.latest
    files := s.files
    events := s.counters.events
    outOfBounds := s.counters.outOfBounds
    windows := s.counters.windows
    recorded := s.counters.recorded
    failures := s.counters.failures }

end Relay

/-! ## The way to the end -/

namespace Phase

/-- How many steps there are at most until the engine waits at the queue. -/
def work : Phase → Nat
  | stopped => 0
  | pop => 1
  | takeRecordingReset none => 2
  | readHeight none _ => 3
  | readWidth none => 4
  | takeReset none => 5
  | head => 6
  | feed _ rest => rest.length + 7
  | check b => b.size + 8
  | takeRecordingReset (some b) => b.size + 9
  | readHeight (some b) _ => b.size + 10
  | readWidth (some b) => b.size + 11
  | takeReset (some b) => b.size + 12

end Phase

namespace Relay

/-- How many turns there are at most: what a batch takes from pop to pop, and a push if it is unsent. -/
def work (r : Relay) : Nat :=
  r.worker.phase.work + (r.worker.pipeline.shared.queue.batches.map (·.size + 12)).sum +
    (r.unsent.map (·.size + 13)).sum

theorem work_step? {w w' : Worker} (h : w.step? = some w') :
    w'.phase.work + (w'.pipeline.shared.queue.batches.map (·.size + 12)).sum <
      w.phase.work + (w.pipeline.shared.queue.batches.map (·.size + 12)).sum := by
  obtain ⟨p, phase, trace⟩ := w
  cases phase with
  | head =>
    cases hr : p.shared.control.running <;> simp only [Worker.step?, hr] at h <;> cases h <;> simp [Phase.work]
  | takeReset inHand =>
    cases hr : p.shared.control.resetRequested <;>
      simp only [Worker.step?, Control.takeReset, hr] at h <;> cases h <;> cases inHand <;> simp [Phase.work]
  | readWidth inHand => cases h; cases inHand <;> simp [Phase.work]
  | readHeight inHand width => cases h; cases inHand <;> simp [Phase.work]
  | takeRecordingReset inHand =>
    cases inHand <;> cases h <;> rw [Pipeline.applyRecordingReset_eq] <;> simp [Phase.work]
  | pop =>
    rcases p.shared.pop?_cases with ⟨-, -, hp⟩ | ⟨b, rest, -, hb, hp⟩ | ⟨-, hp⟩ <;>
      simp only [Worker.step?, hp] at h <;> cases h
    · simp only [Phase.work, hb, List.map_cons, List.sum_cons]
      omega
    · simp [Phase.work]
  | check b =>
    simp only [Worker.step?] at h
    split at h <;> cases h <;> simp [Phase.work, Pipeline.change, Shared.count, Batch.size]
  | feed session rest =>
    cases rest with
    | nil => cases h; simp [Phase.work]
    | cons e rest => cases h; simp [Phase.work]
  | stopped => cases h

/-- Every turn brings the end nearer. -/
theorem work_turn? {r r' : Relay} {t : Turn} (h : r.turn? t = some r') : r'.work < r.work := by
  obtain ⟨w, unsent⟩ := r
  cases t with
  | camera =>
    cases unsent with
    | nil => cases h
    | cons b rest =>
      rcases w.pipeline.shared.push?_cases b with ⟨-, -, hp⟩ | ⟨-, -, hp⟩ | ⟨-, hp⟩ <;>
        simp only [turn?, hp] at h <;> cases h
      · simp only [work, List.map_append, List.sum_append, List.map_cons, List.sum_cons, List.map_nil, List.sum_nil]
        omega
      · simp only [work, List.map_cons, List.sum_cons]
        omega
  | engine =>
    obtain ⟨w', hw, rfl⟩ := Option.map_eq_some_iff.1 h
    exact Nat.add_lt_add_right (work_step? hw) _

/-- Every run can be finished. -/
theorem exists_finished (r : Relay) : ∃ turns, (r.run turns).Finished := by
  induction hn : r.work using Nat.strongRecOn generalizing r with
  | ind n ih =>
    by_cases hf : r.Finished
    · exact ⟨[], hf⟩
    · obtain ⟨t, r', ht⟩ : ∃ t r', r.turn? t = some r' := by
        simp only [Finished, Option.isNone_iff_eq_none, not_and_or, ← ne_eq, Option.ne_none_iff_exists'] at hf
        rcases hf with ⟨r', ht⟩ | ⟨r', ht⟩
        · exact ⟨.camera, r', ht⟩
        · exact ⟨.engine, r', ht⟩
      obtain ⟨turns, hdone⟩ := ih r'.work (hn ▸ work_turn? ht) r' rfl
      refine ⟨t :: turns, ?_⟩
      rw [run, List.foldl_cons, ht]
      exact hdone

end Relay

/-! ## What the rest of the stream will leave -/

namespace Pipeline

/-- Nothing is pending, so nothing is taken. -/
theorem applyResets_of_none {p : Pipeline} (hreset : p.shared.control.resetRequested = false)
    (hrecording : p.shared.control.recordingResetRequested = false) : p.applyResets = p := by
  have hcontrol : { p.shared.control with
      resetRequested := p.shared.control.resetRequested
      recordingResetRequested := p.shared.control.recordingResetRequested } = p.shared.control := rfl
  rw [hreset, hrecording] at hcontrol
  rw [applyResets_eq]
  simp [hreset, hrecording, hcontrol]

end Pipeline

namespace Phase

/-- The events of the batch in work that are still to be counted. -/
def uncounted (phase : Phase) : List Event := phase.batch?.elim [] Batch.events

/-- The events of the batch in work that are still to be fed. -/
def unfed : Phase → List Event
  | feed _ rest => rest
  | phase => phase.uncounted

end Phase

namespace Worker

/-- The engine as it will be when it has taken the resets that are pending. -/
def settled (w : Worker) : Pipeline :=
  let p := w.pipeline
  match w.phase with
  | .readWidth _ =>
    Pipeline.applyResets { p with engine.manager := p.engine.manager.setGeometry p.shared.control.geometry }
  | .readHeight _ width =>
    Pipeline.applyResets { p with engine.manager := p.engine.manager.setGeometry ⟨width, p.shared.control.height⟩ }
  | _ => p.applyResets

/-- The forecast when `later` comes after the events of the batch in work and those queued. -/
def outlook (later : List Event) (w : Worker) : Pipeline.Result :=
  let coming := w.pipeline.shared.queue.batches.flatMap Batch.events ++ later
  w.settled.forecast w.trace.windows (w.phase.uncounted ++ coming).length (w.phase.unfed ++ coming)

/-- What holds at each step while the control state stays as it is: a batch in hand is of the session,
a width that was read is the current one, and a reset that was taken is not pending. -/
def OnCourse (session : SessionId) (w : Worker) : Prop :=
  let c := w.pipeline.shared.control
  match w.phase with
  | .head => True
  | .takeReset inHand => ∀ b ∈ inHand, b.session = session
  | .readWidth inHand => c.resetRequested = false ∧ ∀ b ∈ inHand, b.session = session
  | .readHeight inHand width =>
    c.resetRequested = false ∧ width = c.width ∧ ∀ b ∈ inHand, b.session = session
  | .takeRecordingReset inHand => c.resetRequested = false ∧ ∀ b ∈ inHand, b.session = session
  | .pop => c.resetRequested = false ∧ c.recordingResetRequested = false
  | .check b => c.resetRequested = false ∧ c.recordingResetRequested = false ∧ b.session = session
  | .feed _ _ => c.resetRequested = false ∧ c.recordingResetRequested = false
  | .stopped => False

variable {session : SessionId} {w w' : Worker}

/-- A step of the engine stays on course and keeps the outlook. -/
theorem outlook_step? (hc : w.OnCourse session) (ha : w.pipeline.shared.control.accepts session = true)
    (hq : ∀ b ∈ w.pipeline.shared.queue.batches, b.session = session) (h : w.step? = some w')
    (later : List Event) : w'.OnCourse session ∧ w'.outlook later = w.outlook later := by
  obtain ⟨p, phase, trace⟩ := w
  simp only [Control.accepts, Bool.and_eq_true, beq_iff_eq] at ha
  obtain ⟨⟨hrunning, -⟩, hsession⟩ := ha
  cases phase with
  | head =>
    simp only [step?, hrunning] at h
    cases h
    exact ⟨fun b hb => absurd hb (Option.not_mem_none b), rfl⟩
  | takeReset inHand =>
    cases hr : p.shared.control.resetRequested <;> simp only [step?, Control.takeReset, hr] at h <;> cases h
    · refine ⟨⟨rfl, hc⟩, ?_⟩
      simp only [outlook, settled, Pipeline.applyResets_eq, hr]
      rfl
    · refine ⟨⟨rfl, hc⟩, ?_⟩
      simp only [outlook, settled, Pipeline.applyResets_eq, hr]
      rfl
  | readWidth inHand =>
    cases h
    exact ⟨⟨hc.1, rfl, hc.2⟩, rfl⟩
  | readHeight inHand width =>
    cases h
    exact ⟨⟨hc.1, hc.2.2⟩, rfl⟩
  | takeRecordingReset inHand =>
    have hsettled : p.applyRecordingReset.applyResets = p.applyResets := by
      simp only [Pipeline.applyResets_eq, Pipeline.applyRecordingReset_eq]
      rfl
    cases inHand with
    | none =>
      cases h
      refine ⟨?_, ?_⟩
      · simp only [OnCourse, Pipeline.applyRecordingReset_eq]
        exact ⟨hc.1, trivial⟩
      · simp only [outlook, settled, hsettled]
        rw [Pipeline.applyRecordingReset_eq]
        rfl
    | some b =>
      cases h
      refine ⟨?_, ?_⟩
      · simp only [OnCourse, Pipeline.applyRecordingReset_eq]
        exact ⟨hc.1, trivial, hc.2 b rfl⟩
      · simp only [outlook, settled, hsettled]
        rw [Pipeline.applyRecordingReset_eq]
        rfl
  | pop =>
    have hsettled : settled ⟨p, .pop, trace⟩ = p := Pipeline.applyResets_of_none hc.1 hc.2
    rcases p.shared.pop?_cases with ⟨-, -, hp⟩ | ⟨b, rest, -, hb, hp⟩ | ⟨hr, -⟩
    · simp only [step?, hp] at h
      cases h
    · simp only [step?, hp] at h
      cases h
      refine ⟨fun b' hb' => hq b' (by simp_all), ?_⟩
      have hsettled' : settled ⟨{ p with shared.queue.batches := rest }, .takeReset (some b), trace⟩ =
          { p with shared.queue.batches := rest } := Pipeline.applyResets_of_none hc.1 hc.2
      -- The events of the batch are no longer queued but in work, in the same place of the stream.
      simp only [outlook, hsettled, hsettled', Phase.unfed, Phase.uncounted, Phase.batch?, hb, List.flatMap_cons,
        Option.elim, List.nil_append, List.append_assoc]
      exact Pipeline.forecast_setInflow { p.shared.inflow with queue.batches := rest } p rfl rfl _ _
    · rw [hrunning] at hr
      cases hr
  | check b =>
    have hsettled : settled ⟨p, .check b, trace⟩ = p := Pipeline.applyResets_of_none hc.1 hc.2.1
    simp only [step?, hc.2.2, hsession, if_true] at h
    cases h
    refine ⟨⟨hc.1, hc.2.1⟩, ?_⟩
    have hsettled' : settled ⟨p.change (·.count (.addEvents b.size.toUInt64)), .feed session b.events, trace⟩ =
        p.change (·.count (.addEvents b.size.toUInt64)) := Pipeline.applyResets_of_none hc.1 hc.2.1
    -- The events are counted here, so fewer are left to be counted.
    simp only [outlook, hsettled, hsettled']
    refine Pipeline.forecast_setInflow
      { p.shared.inflow with events := p.shared.counters.events + b.size.toUInt64 } p ?_ rfl _ _
    simp only [Phase.uncounted, Phase.batch?, Option.elim, List.nil_append]
    rw [@List.length_append _ b.events, UInt64.ofNat_add, ← UInt64.add_assoc]
    rfl
  | feed session' rest =>
    have hsettled : settled ⟨p, .feed session' rest, trace⟩ = p := Pipeline.applyResets_of_none hc.1 hc.2
    cases rest with
    | nil =>
      cases h
      exact ⟨trivial, rfl⟩
    | cons e rest =>
      cases h
      have hcontrol := p.control_feed e
      refine ⟨⟨?_, ?_⟩, ?_⟩
      · rw [hcontrol]
        exact hc.1
      · rw [hcontrol]
        exact hc.2
      have hsettled' : settled ⟨p.feed e, .feed session' rest,
          trace.feed (p.engine.manager.process e p.shared.control.recording) ⟨session', e⟩⟩ = p.feed e :=
        Pipeline.applyResets_of_none (hcontrol ▸ hc.1) (hcontrol ▸ hc.2)
      simp only [outlook, hsettled, hsettled', Trace.windows_feed, Pipeline.queue_feed]
      exact Pipeline.forecast_feed ..
  | stopped => cases h

end Worker

namespace Relay

/-- What holds from turn to turn. -/
structure Underway (session : SessionId) (r : Relay) : Prop where
  accepts : r.worker.pipeline.shared.control.accepts session = true
  places : 0 < r.worker.pipeline.shared.queue.capacity
  queued : ∀ b ∈ r.worker.pipeline.shared.queue.batches, b.session = session
  unsent : ∀ b ∈ r.unsent, b.session = session
  onCourse : r.worker.OnCourse session

/-- The forecast for all that the camera has still to push. -/
def outlook (r : Relay) : Pipeline.Result := r.worker.outlook (r.unsent.flatMap Batch.events)

theorem underway_start (capacity : Nat) {session : SessionId} (cut : List (List Event)) {p : Pipeline}
    (h : p.shared.control.accepts session = true) : (start capacity session cut p).Underway session where
  accepts := h
  places := Nat.lt_of_lt_of_le Nat.zero_lt_one (Nat.le_max_right capacity 1)
  queued := nofun
  unsent b hb := by
    obtain ⟨events, -, rfl⟩ := List.mem_map.1 hb
    rfl
  onCourse := trivial

/-- Resets are taken as they are pending, whatever comes in at the queue. -/
theorem settled_setInflow (w : Worker) (i : Inflow) :
    ({ w with pipeline.shared := w.pipeline.shared.setInflow i } : Worker).settled =
      { w.settled with shared := w.settled.shared.setInflow i } := by
  obtain ⟨p, phase, trace⟩ := w
  cases phase <;> simp only [Worker.settled, Pipeline.applyResets_eq] <;> rfl

theorem counters_settled (w : Worker) : w.settled.shared.counters = w.pipeline.shared.counters := by
  obtain ⟨p, phase, trace⟩ := w
  cases phase <;> simp only [Worker.settled, Pipeline.applyResets_eq]

/-- Pushing a batch moves its events from those unsent to those queued. -/
theorem outlook_push (w : Worker) (b : Batch) (rest : List Batch) :
    outlook ⟨{ w with pipeline.shared := { w.pipeline.shared with
      queue := { w.pipeline.shared.queue with batches := w.pipeline.shared.queue.batches ++ [b] }
      counters := w.pipeline.shared.counters.addEnqueued } }, rest⟩ = outlook ⟨w, b :: rest⟩ := by
  let i : Inflow := { w.pipeline.shared.inflow with
    queue.batches := w.pipeline.shared.queue.batches ++ [b]
    enqueued := w.pipeline.shared.counters.enqueued + 1 }
  have hevents : (w.pipeline.shared.queue.batches ++ [b]).flatMap Batch.events ++ rest.flatMap Batch.events =
      w.pipeline.shared.queue.batches.flatMap Batch.events ++ (b :: rest).flatMap Batch.events := by
    simp
  have hsettled := settled_setInflow w i
  simp only [outlook, Worker.outlook]
  rw [hevents]
  refine (congrArg _ hsettled).trans (Pipeline.forecast_setInflow i w.settled ?_ ?_ _ _)
  · rw [counters_settled]
    rfl
  · rw [counters_settled]
    rfl

variable {session : SessionId} {r r' : Relay} {t : Turn}

theorem turn?_engine (hr : r.Underway session) (h : r.turn? .engine = some r') :
    r'.Underway session ∧ r'.outlook = r.outlook := by
  obtain ⟨w', hw, rfl⟩ := Option.map_eq_some_iff.1 h
  obtain ⟨⟨reset, recordingReset, hcontrol⟩, hqueue, hplaces⟩ := Worker.frame_step? hw
  obtain ⟨hcourse, houtlook⟩ :=
    Worker.outlook_step? hr.onCourse hr.accepts hr.queued hw (r.unsent.flatMap Batch.events)
  refine ⟨⟨?_, ?_, fun b hb => hr.queued b (hqueue hb), hr.unsent, hcourse⟩, houtlook⟩
  · rw [hcontrol]
    exact hr.accepts
  · rw [hplaces]
    exact hr.places

theorem turn?_camera (hr : r.Underway session) (h : r.turn? .camera = some r') :
    r'.Underway session ∧ r'.outlook = r.outlook := by
  obtain ⟨w, unsent⟩ := r
  cases unsent with
  | nil => cases h
  | cons b rest =>
    have hb : b.session = session := hr.unsent b (by simp)
    have ha : w.pipeline.shared.control.accepts b.session = true := hb ▸ hr.accepts
    rcases w.pipeline.shared.push?_cases b with ⟨-, -, hp⟩ | ⟨-, -, hp⟩ | ⟨hno, -⟩
    · simp only [turn?, hp] at h
      cases h
    · simp only [turn?, hp] at h
      cases h
      refine ⟨⟨hr.accepts, hr.places, ?_, fun b' hb' => hr.unsent b' (by simp [hb']), hr.onCourse⟩, ?_⟩
      · intro b' hb'
        rcases List.mem_append.1 hb' with hb' | hb'
        · exact hr.queued b' hb'
        · rw [List.mem_singleton.1 hb', hb]
      · exact outlook_push w b rest
    · rw [ha] at hno
      cases hno

/-- A turn keeps what holds and the outlook. -/
theorem outlook_turn? (hr : r.Underway session) (h : r.turn? t = some r') :
    r'.Underway session ∧ r'.outlook = r.outlook := by
  cases t with
  | camera => exact turn?_camera hr h
  | engine => exact turn?_engine hr h

theorem outlook_run (hr : r.Underway session) (turns : List Turn) :
    (r.run turns).Underway session ∧ (r.run turns).outlook = r.outlook := by
  induction turns generalizing r with
  | nil => exact ⟨hr, rfl⟩
  | cons t rest ih =>
    rw [run, List.foldl_cons]
    cases ht : r.turn? t with
    | none => exact ih hr
    | some r' =>
      obtain ⟨hr', houtlook⟩ := outlook_turn? hr ht
      obtain ⟨hrest, hkept⟩ := ih hr'
      exact ⟨hrest, hkept.trans houtlook⟩

/-! ## Finished runs -/

/-- The engine is on course and cannot go on only if it waits for a batch. -/
theorem pop_of_step?_eq_none {w : Worker} (hc : w.OnCourse session) (h : w.step? = none) :
    w.phase = .pop ∧ w.pipeline.shared.pop? = none := by
  obtain ⟨p, phase, trace⟩ := w
  cases phase with
  | pop =>
    rcases p.shared.pop?_cases with ⟨-, -, hp⟩ | ⟨b, rest, -, -, hp⟩ | ⟨-, hp⟩
    · exact ⟨rfl, hp⟩
    · simp [Worker.step?, hp] at h
    · simp [Worker.step?, hp] at h
  | takeRecordingReset inHand => cases inHand <;> cases h
  | check b =>
    simp only [Worker.step?] at h
    split at h <;> cases h
  | feed session rest => cases rest <;> cases h
  | stopped => exact hc.elim
  | _ => cases h

/-- A finished run has used up everything. -/
theorem consumed_of_finished (hr : r.Underway session) (hf : r.Finished) :
    r.unsent = [] ∧ r.worker.pipeline.shared.queue.batches = [] ∧ r.worker.phase = .pop := by
  obtain ⟨w, unsent⟩ := r
  obtain ⟨hcamera, hengine⟩ := hf
  have hnone : w.step? = none := by simpa [turn?] using hengine
  obtain ⟨hphase, hp⟩ := pop_of_step?_eq_none hr.onCourse hnone
  have hempty : w.pipeline.shared.queue.batches = [] := by
    rcases w.pipeline.shared.pop?_cases with ⟨-, hb, -⟩ | ⟨b, rest, -, -, hp'⟩ | ⟨-, hp'⟩
    · exact hb
    · rw [hp] at hp'
      cases hp'
    · rw [hp] at hp'
      cases hp'
  refine ⟨?_, hempty, hphase⟩
  cases unsent with
  | nil => rfl
  | cons b rest =>
    have hplaces : 0 < w.pipeline.shared.queue.capacity := hr.places
    rcases w.pipeline.shared.push?_cases b with ⟨-, hfull, -⟩ | ⟨-, -, hp'⟩ | ⟨-, hp'⟩
    · simp only [HandoffQueue.size, hempty, List.length_nil] at hfull
      omega
    · simp [turn?, hp'] at hcamera
    · simp [turn?, hp'] at hcamera

/-- When everything is used up, the forecast is what is there. -/
theorem outlook_of_finished (hr : r.Underway session) (hf : r.Finished) : r.outlook = r.result := by
  obtain ⟨hunsent, hqueue, hphase⟩ := consumed_of_finished hr hf
  have hc := hr.onCourse
  obtain ⟨⟨p, phase, trace⟩, unsent⟩ := r
  simp only at hunsent hqueue hphase
  subst hphase hunsent
  have hsettled : Worker.settled ⟨p, .pop, trace⟩ = p := Pipeline.applyResets_of_none hc.1 hc.2
  simp [outlook, Worker.outlook, hsettled, hqueue, Phase.uncounted, Phase.unfed, Phase.batch?, Pipeline.forecast,
    WindowManager.processAll, result]

theorem outlook_start (capacity : Nat) (session : SessionId) (cut : List (List Event)) (p : Pipeline) :
    (start capacity session cut p).outlook = p.sequential cut.flatten := by
  have hevents : (cut.map (Batch.mk session)).flatMap Batch.events = cut.flatten := by
    rw [List.flatMap_def, List.map_map]
    exact congrArg List.flatten (List.map_id cut)
  have hsettled := settled_setInflow ⟨p, .head, .empty⟩ { p.shared.inflow with queue := .new capacity }
  simp only [outlook, Worker.outlook, start, hevents]
  exact (congrArg _ hsettled).trans
    (Pipeline.forecast_setInflow _ (Worker.settled ⟨p, .head, .empty⟩) (by rw [counters_settled]; rfl)
      (by rw [counters_settled]; rfl) _ _)

theorem result_of_finished {p : Pipeline} (h : p.shared.control.accepts session = true) (capacity : Nat)
    (cut : List (List Event)) (turns : List Turn) (hf : ((start capacity session cut p).run turns).Finished) :
    ((start capacity session cut p).run turns).result = p.sequential cut.flatten := by
  obtain ⟨hr, houtlook⟩ := outlook_run (underway_start capacity cut h) turns
  rw [← outlook_of_finished hr hf, houtlook, outlook_start]

/-- However a stream is cut into batches of the session, whatever the capacity and in whatever order the
turns come: every run can be finished, and a finished one has used up everything and has the result of
feeding the events one after the other. So all finished runs have the same result. -/
theorem result_of_schedules {p : Pipeline} (h : p.shared.control.accepts session = true)
    {cut cut' : List (List Event)} (hcut : cut.flatten = cut'.flatten) (capacity capacity' : Nat)
    (turns turns' : List Turn) :
    let r := (start capacity session cut p).run turns
    let r' := (start capacity' session cut' p).run turns'
    (∃ more, (r.run more).Finished) ∧
    (r.Finished → r.unsent = [] ∧ r.worker.pipeline.shared.queue.batches = [] ∧
      r.result = p.sequential cut.flatten) ∧
    (r.Finished → r'.Finished → r.result = r'.result) := by
  intro r r'
  refine ⟨r.exists_finished, fun hf => ?_, fun hf hf' => ?_⟩
  · obtain ⟨hr, -⟩ := outlook_run (underway_start capacity cut h) turns
    obtain ⟨hunsent, hqueue, -⟩ := consumed_of_finished hr hf
    exact ⟨hunsent, hqueue, result_of_finished h capacity cut turns hf⟩
  · rw [result_of_finished h capacity cut turns hf, result_of_finished h capacity' cut' turns' hf', hcut]

/-- Three events in two batches through one place, or in three batches with one empty through three places,
with a reset pending and a recording that has no directory. -/
theorem result_of_two_schedules :
    let c : Control := { Control.initial with
      acquisition := true, recording := true, resetRequested := true, session := 1, width := 2, height := 2 }
    let p : Pipeline := .start .standard { Shared.initial 1 with control := c }
    let e₁ : Event := ⟨0, 1, .on, 0⟩
    let e₂ : Event := ⟨2, 0, .off, 1999⟩
    let e₃ : Event := ⟨1, 1, .on, 6000⟩
    let r := (start 1 1 [[e₁, e₂], [e₃]] p).run (List.replicate 30 [.camera, .engine]).flatten
    let r' := (start 3 1 [[e₁], [], [e₂, e₃]] p).run (List.replicate 3 .camera ++ List.replicate 40 .engine)
    r.Finished ∧ r'.Finished ∧ r.result = p.sequential [e₁, e₂, e₃] ∧ r.result = r'.result := by
  intro c p e₁ e₂ e₃ r r'
  have hf : r.Finished := by decide +kernel
  have hf' : r'.Finished := by decide +kernel
  have ha : p.shared.control.accepts 1 = true := by decide
  have hcut : [[e₁, e₂], [e₃]].flatten = [[e₁], [], [e₂, e₃]].flatten := by decide
  obtain ⟨-, hresult, hsame⟩ := result_of_schedules ha hcut 1 3
    (List.replicate 30 [.camera, .engine]).flatten (List.replicate 3 .camera ++ List.replicate 40 .engine)
  exact ⟨hf, hf', (hresult hf).2.2, hsame hf hf'⟩

end Relay

end EventCamera
