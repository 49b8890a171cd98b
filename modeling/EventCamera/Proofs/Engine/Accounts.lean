import EventCamera.Proofs.Engine.Steps
import EventCamera.Proofs.Window.Reuse
/-!
# The accounts of the engine

An engine is called to take resets or to process a batch, or works off its queue by itself; it takes the steps of its
`Worker`, and between two of them the control state and the files change as they like. `all_accounted`: every batch is
either used or counted as dropped, every event of a used batch is drawn in one window, or off the sensor, or came when
there was no sensor, and the counters and the latest frame tell of the windows that were closed.

`Accounts` keeps what the counters should tell: the batches as they were judged, the events as they were fed, and the
windows as an `Intake` has them, those dropped by a reset apart. `Balanced` is what every move keeps. Only a check of a
batch and an event change a counter (`counters_feed`), and only an event closes windows.

`exists_run_processBatch` and `exists_run_applyResets`: without interference the moves do what the calls do.
-/

namespace EventCamera

/-- What becomes of an event on a sensor of the given size. -/
def Geometry.outcome (g : Geometry) (e : Event) : Outcome :=
  if g.isEmpty then .noGeometry else if g.sees e then .accepted else .outOfBounds

/-- The engine neither has a batch in hand nor takes resets. -/
def Phase.isIdle : Phase → Bool
  | head | pop | stopped => true
  | _ => false

theorem Phase.of_isIdle {phase : Phase} (h : phase.isIdle = true) : phase.batch? = none ∧ phase.rest = [] := by
  cases phase <;> first | exact ⟨rfl, rfl⟩ | cases h

namespace Intake

open WindowManager

theorem Exact.outcome_process {x : Intake} (h : x.Exact) (e : Event) (recording : Bool) :
    (x.manager.process e recording).outcome = x.manager.geometry.outcome e := by
  unfold Geometry.outcome
  cases hg : x.manager.geometry.isEmpty with
  | true => rw [process_of_isEmpty hg, if_pos rfl]
  | false =>
    rw [if_neg (by simp)]
    cases hc : x.manager.current with
    | none =>
      rw [WindowManager.process_of_idle hg hc]
      simp [Window.fresh]
    | some w =>
      rw [WindowManager.process_of_current hg hc (h.stop w hc)]
      simp [Window.geometry_canvas_ahead, h.geometry w hc]

/-- Without a current window nothing was accepted since. -/
theorem Exact.flatMap_current {x : Intake} (h : x.Exact) :
    (x.manager.current.toList.map (·, x.accepted)).flatMap Prod.snd = x.accepted := by
  cases hc : x.manager.current with
  | none => rw [h.idle hc]; rfl
  | some w => simp

theorem map_fst_handOver (accepted : List Event) (closed : List Window) :
    (handOver accepted closed).map Prod.fst = closed := by
  cases closed with
  | nil => rfl
  | cons w skipped => simp [handOver, Function.comp_def]

/-- What was accepted goes with the first of the windows. -/
theorem flatMap_snd_handOver (accepted : List Event) (closed : List Window) :
    (handOver accepted closed).flatMap Prod.snd = if closed.isEmpty then [] else accepted := by
  cases closed with
  | nil => rfl
  | cons w skipped => simp [handOver, List.flatMap_map]

end Intake

namespace Pipeline

/-! ## Counters -/

/-- Every window that is finished is counted, and one to be recorded is counted as recorded or as failed. -/
theorem counters_foldl_finishWindow (closed : List Window) (state : Recorder × Shared) :
    let c := state.2.counters
    let c' := (closed.foldl finishWindow state).2.counters
    c'.windows = c.windows + .ofNat closed.length ∧
    c'.recorded + c'.failures = c.recorded + c.failures + .ofNat (closed.countP (·.recording)) := by
  induction closed generalizing state with
  | nil => exact ⟨(UInt64.add_zero _).symm, (UInt64.add_zero _).symm⟩
  | cons w rest ih =>
    obtain ⟨recorder, s⟩ := state
    obtain ⟨hwindows, hfiles⟩ := ih (finishWindow (recorder, s) w)
    have hwindow : (finishWindow (recorder, s) w).2.counters.windows = s.counters.windows + 1 := by
      rcases recordWindow_cases w recorder s with ⟨-, h⟩ | ⟨-, -, h⟩ | ⟨_, _, _, _, -, -, -, h⟩ |
          ⟨_, _, _, _, -, -, -, h⟩ <;>
        rw [finishWindow_eq, h] <;> rfl
    have hfile : (finishWindow (recorder, s) w).2.counters.recorded +
        (finishWindow (recorder, s) w).2.counters.failures =
          s.counters.recorded + s.counters.failures + .ofNat (if w.recording then 1 else 0) := by
      rcases recordWindow_cases w recorder s with ⟨hr, h⟩ | ⟨hr, -, h⟩ | ⟨_, _, _, _, hr, -, -, h⟩ |
          ⟨_, _, _, _, hr, -, -, h⟩ <;>
        rw [finishWindow_eq, h, hr]
      · exact (UInt64.add_zero _).symm
      · exact (UInt64.add_assoc ..).symm
      · show s.counters.recorded + 1 + s.counters.failures = s.counters.recorded + s.counters.failures + 1
        rw [UInt64.add_assoc, UInt64.add_comm 1, ← UInt64.add_assoc]
      · exact (UInt64.add_assoc ..).symm
    refine ⟨?_, ?_⟩
    · rw [List.foldl_cons, hwindows, hwindow, List.length_cons, Nat.add_comm, UInt64.ofNat_add, UInt64.add_assoc]
      rfl
    · rw [List.foldl_cons, hfiles, hfile, List.countP_cons, Nat.add_comm, UInt64.ofNat_add, UInt64.add_assoc]

/-- What an event does to the counters. -/
theorem counters_feed (p : Pipeline) (e : Event) :
    let step := p.engine.manager.process e p.shared.control.recording
    let c := p.shared.counters
    let c' := (p.feed e).shared.counters
    c'.events = c.events ∧ c'.dropped = c.dropped ∧
    c'.outOfBounds = c.outOfBounds + .ofNat ([step.outcome].count .outOfBounds) ∧
    c'.windows = c.windows + .ofNat step.closed.toList.length ∧
    c'.recorded + c'.failures = c.recorded + c.failures + .ofNat (step.closed.toList.countP (·.recording)) := by
  intro step c c'
  have hin := inflow_foldl_finishWindow step.closed.toList p.engine.recorder p.shared
  obtain ⟨hwindows, hfiles⟩ := counters_foldl_finishWindow step.closed.toList (p.engine.recorder, p.shared)
  have hcounters : c' = (countOutcome step.outcome
      (step.closed.toList.foldl finishWindow (p.engine.recorder, p.shared)).2).counters :=
    congrArg (·.shared.counters) (p.feed_eq e)
  rw [countOutcome_eq] at hcounters
  rw [hcounters]
  exact ⟨congrArg Inflow.events hin, congrArg Inflow.dropped hin,
    congrArg (· + _) (congrArg Inflow.outOfBounds hin), hwindows, hfiles⟩

theorem processBatch_of_ne {p : Pipeline} {b : Batch} (h : b.session ≠ p.applyResets.shared.control.session) :
    p.processBatch b = p.applyResets.change (·.count (.addDropped 1)) := by
  simp [processBatch, h]

end Pipeline

/-! ## Moves -/

/-- What happens to an engine. -/
inductive EngineMove where
  /-- It is called to process a batch, or only to take resets. -/
  | call (b : Option Batch)
  /-- It takes its next step. -/
  | engine
  | write (w : Control.Write)
  /-- Others change the files, as they like. -/
  | files (tree : FileTree)

/-- The engine, and what there is to account for. -/
structure Accounts where
  worker : Worker
  /-- What has come to the window manager. -/
  intake : Intake
  /-- The batches that came to the engine. -/
  received : List Batch
  /-- Those of them that it has judged, with whether the session was the current one. -/
  judged : List (Batch × Bool)
  /-- The events fed, each with the size of the sensor at that time. -/
  fed : List (Geometry × Event)
  /-- The windows dropped by resets, each with the events accepted since it opened. -/
  discarded : List (Window × List Event)

namespace Accounts

/-- An engine that has seen nothing, with counters at zero and no frame. The rest of the shared state is as it may
be. -/
def start (length : WindowLength) (s : Shared) : Accounts where
  worker := .start length { s with counters := .zero, latest := none }
  intake := .start length s.control.geometry
  received := []
  judged := []
  fed := []
  discarded := []

def shared (x : Accounts) : Shared := x.worker.pipeline.shared

def change (f : Shared → Shared) (x : Accounts) : Accounts :=
  { x with worker.pipeline := x.worker.pipeline.change f }

/-- The engine has taken a step. -/
def advance (x : Accounts) (worker : Worker) : Accounts :=
  let m := x.worker.pipeline.engine.manager
  match x.worker.phase with
  | .readHeight _ _ =>
    { x with
      worker
      intake := x.intake.act WindowManager.process (.setGeometry worker.pipeline.engine.manager.geometry)
      discarded := x.discarded ++ m.current.toList.map (·, x.intake.accepted) }
  | .pop => { x with worker, received := x.received ++ worker.phase.batch?.toList }
  | .check b => { x with worker, judged := x.judged ++ [(b, b.session == x.shared.control.session)] }
  | .feed _ (e :: _) =>
    { x with
      worker
      intake := x.intake.act WindowManager.process (.process e x.shared.control.recording)
      fed := x.fed ++ [(m.geometry, e)] }
  | _ => { x with worker }

def act (x : Accounts) : EngineMove → Accounts
  | .call b =>
    if x.worker.phase.isIdle then
      { x with worker.phase := .takeReset b, received := x.received ++ b.toList }
    else x
  | .engine =>
    match x.worker.step? with
    | none => x
    | some worker => x.advance worker
  | .write w => x.change (·.write [w])
  | .files tree => x.change fun s => { s with files := tree }

def run (x : Accounts) (moves : List EngineMove) : Accounts := moves.foldl act x

/-! ## What there is to account for -/

/-- The batches whose session was the current one. -/
def used (x : Accounts) : List Batch := (x.judged.filter (·.2)).map Prod.fst

/-- The other batches that were judged. -/
def turnedAway (x : Accounts) : List Batch := (x.judged.filter (!·.2)).map Prod.fst

/-- The events fed whose outcome is the given one, by the size of the sensor at that time. -/
def fedTo (outcome : Outcome) (x : Accounts) : List Event :=
  (x.fed.filter fun (g, e) => g.outcome e = outcome).map Prod.snd

/-- The windows closed so far, in order. -/
def closed (x : Accounts) : List Window := x.intake.handed.map Prod.fst

/-- All windows that were ever opened: closed, dropped, or current, each with the events accepted since it opened. -/
def windows (x : Accounts) : List (Window × List Event) :=
  x.intake.handed ++ x.discarded ++ x.worker.pipeline.engine.manager.current.toList.map (·, x.intake.accepted)

/-- The counters and the latest frame tell of these batches, outcomes and closed windows. -/
structure Tell (s : Shared) (used turnedAway : List Batch) (outcomes : List Outcome) (closed : List Window) :
    Prop where
  events : s.counters.events = .ofNat (used.map Batch.size).sum
  dropped : s.counters.dropped = .ofNat turnedAway.length
  outOfBounds : s.counters.outOfBounds = .ofNat (outcomes.count .outOfBounds)
  windows : s.counters.windows = .ofNat closed.length
  files : s.counters.recorded + s.counters.failures = .ofNat (closed.countP (·.recording))
  latest : s.latest = closed.getLast?.map Window.publication

/-- What every move keeps. -/
structure Balanced (x : Accounts) : Prop where
  manager : x.worker.pipeline.engine.manager = x.intake.manager
  exact : x.intake.Exact
  received : x.received = x.judged.map Prod.fst ++ x.worker.phase.batch?.toList
  fed : x.used.flatMap Batch.events = x.fed.map Prod.snd ++ x.worker.phase.rest
  outcomes : x.intake.outcomes = x.fed.map fun (g, e) => g.outcome e
  accepted : (x.fedTo .accepted).Perm
    (x.intake.handed.flatMap Prod.snd ++ (x.discarded.flatMap Prod.snd ++ x.intake.accepted))
  discarded : ∀ p ∈ x.discarded, p.1.Accepted p.2
  tell : Tell x.shared x.used x.turnedAway x.intake.outcomes x.closed

variable {x : Accounts} {worker : Worker}

theorem Tell.congr {s s' : Shared} {used turnedAway : List Batch} {outcomes : List Outcome} {closed : List Window}
    (h : Tell s used turnedAway outcomes closed) (hcounters : s'.counters = s.counters)
    (hlatest : s'.latest = s.latest) : Tell s' used turnedAway outcomes closed where
  events := (congrArg Counters.events hcounters).trans h.events
  dropped := (congrArg Counters.dropped hcounters).trans h.dropped
  outOfBounds := (congrArg Counters.outOfBounds hcounters).trans h.outOfBounds
  windows := (congrArg Counters.windows hcounters).trans h.windows
  files := (congrArg (fun c : Counters => c.recorded + c.failures) hcounters).trans h.files
  latest := hlatest.trans h.latest

theorem balanced_start (length : WindowLength) (s : Shared) : (start length s).Balanced where
  manager := rfl
  exact := Intake.exact_start length s.control.geometry
  received := rfl
  fed := rfl
  outcomes := rfl
  accepted := .nil
  discarded := nofun
  tell := ⟨rfl, rfl, rfl, rfl, rfl, rfl⟩

/-- Nothing has happened that there is to account for. -/
theorem Balanced.unchanged (h : x.Balanced)
    (hmanager : worker.pipeline.engine.manager = x.worker.pipeline.engine.manager)
    (hcounters : worker.pipeline.shared.counters = x.shared.counters)
    (hlatest : worker.pipeline.shared.latest = x.shared.latest)
    (hbatch : worker.phase.batch? = x.worker.phase.batch?) (hrest : worker.phase.rest = x.worker.phase.rest) :
    Balanced { x with worker } where
  manager := hmanager.trans h.manager
  exact := h.exact
  received := by
    rw [hbatch]
    exact h.received
  fed := by
    rw [hrest]
    exact h.fed
  outcomes := h.outcomes
  accepted := h.accepted
  discarded := h.discarded
  tell := h.tell.congr hcounters hlatest

/-- A batch comes to the engine. -/
theorem Balanced.receive (h : x.Balanced) (b : Option Batch)
    (hmanager : worker.pipeline.engine.manager = x.worker.pipeline.engine.manager)
    (hcounters : worker.pipeline.shared.counters = x.shared.counters)
    (hlatest : worker.pipeline.shared.latest = x.shared.latest)
    (hnone : x.worker.phase.batch? = none) (hbatch : worker.phase.batch? = b)
    (hrest : x.worker.phase.rest = []) (hrest' : worker.phase.rest = []) :
    Balanced { x with worker, received := x.received ++ b.toList } where
  manager := hmanager.trans h.manager
  exact := h.exact
  received := by
    show x.received ++ b.toList = x.judged.map Prod.fst ++ worker.phase.batch?.toList
    rw [h.received, hnone, hbatch, Option.toList_none, List.append_nil]
  fed := by
    show x.used.flatMap Batch.events = x.fed.map Prod.snd ++ worker.phase.rest
    rw [h.fed, hrest, hrest']
  outcomes := h.outcomes
  accepted := h.accepted
  discarded := h.discarded
  tell := h.tell.congr hcounters hlatest

theorem used_judged (worker : Worker) (b : Batch) (current : Bool) :
    ({ x with worker, judged := x.judged ++ [(b, current)] } : Accounts).used =
      x.used ++ if current = true then [b] else [] := by
  cases current <;> simp [used]

theorem turnedAway_judged (worker : Worker) (b : Batch) (current : Bool) :
    ({ x with worker, judged := x.judged ++ [(b, current)] } : Accounts).turnedAway =
      x.turnedAway ++ if current = true then [] else [b] := by
  cases current <;> simp [turnedAway]

theorem Balanced.received_judged {b : Batch} (h : x.Balanced) (hphase : x.worker.phase = .check b) (current : Bool) :
    x.received = (x.judged ++ [(b, current)]).map Prod.fst := by
  rw [h.received, hphase, List.map_append]
  rfl

/-- The batch in hand is of the current session. -/
theorem Balanced.use {b : Batch} (h : x.Balanced) (hphase : x.worker.phase = .check b)
    (hb : b.session = x.shared.control.session) :
    Balanced { x with
      worker :=
        ⟨x.worker.pipeline.change (·.count (.addEvents b.size.toUInt64)), .feed b.session b.events, x.worker.trace⟩
      judged := x.judged ++ [(b, b.session == x.shared.control.session)] } := by
  rw [beq_iff_eq.2 hb]
  refine
    { manager := h.manager, exact := h.exact
      received := (h.received_judged hphase true).trans (List.append_nil _).symm
      fed := ?_, outcomes := h.outcomes, accepted := h.accepted, discarded := h.discarded
      tell := { h.tell with events := ?_, dropped := ?_ } }
  · have hfed := h.fed
    rw [hphase] at hfed
    rw [used_judged, if_pos rfl, List.flatMap_append, hfed, List.flatMap_singleton]
    exact congrArg (· ++ b.events) (List.append_nil _)
  · rw [used_judged, if_pos rfl, List.map_append, List.sum_append, UInt64.ofNat_add, ← h.tell.events]
    rfl
  · rw [turnedAway_judged, if_pos rfl, List.append_nil]
    exact h.tell.dropped

/-- The batch in hand is of another session. -/
theorem Balanced.turnAway {b : Batch} (h : x.Balanced) (hphase : x.worker.phase = .check b)
    (hb : b.session ≠ x.shared.control.session) :
    Balanced { x with
      worker := ⟨x.worker.pipeline.change (·.count (.addDropped 1)), .head, x.worker.trace⟩
      judged := x.judged ++ [(b, b.session == x.shared.control.session)] } := by
  rw [beq_eq_false_iff_ne.2 hb]
  refine
    { manager := h.manager, exact := h.exact
      received := (h.received_judged hphase false).trans (List.append_nil _).symm
      fed := ?_, outcomes := h.outcomes, accepted := h.accepted, discarded := h.discarded
      tell := { h.tell with events := ?_, dropped := ?_ } }
  · have hfed := h.fed
    rw [hphase] at hfed
    rw [used_judged, if_neg (by decide), List.append_nil]
    exact hfed
  · rw [used_judged, if_neg (by decide), List.append_nil]
    exact h.tell.events
  · rw [turnedAway_judged, if_neg (by decide), List.length_append, UInt64.ofNat_add, ← h.tell.dropped]
    rfl

/-- The engine takes over a size that it has read, and drops the current window. -/
theorem Balanced.drop (h : x.Balanced) (g : Geometry)
    (hmanager : worker.pipeline.engine.manager = x.worker.pipeline.engine.manager.setGeometry g)
    (hcounters : worker.pipeline.shared.counters = x.shared.counters)
    (hlatest : worker.pipeline.shared.latest = x.shared.latest)
    (hbatch : worker.phase.batch? = x.worker.phase.batch?) (hrest : worker.phase.rest = x.worker.phase.rest) :
    Balanced { x with
      worker
      intake := x.intake.act WindowManager.process (.setGeometry g)
      discarded := x.discarded ++
        x.worker.pipeline.engine.manager.current.toList.map (·, x.intake.accepted) } where
  manager := hmanager.trans (congrArg (·.setGeometry g) h.manager)
  exact := h.exact.act (.setGeometry g)
  received := by
    rw [hbatch]
    exact h.received
  fed := by
    rw [hrest]
    exact h.fed
  outcomes := h.outcomes
  accepted := by
    rw [List.flatMap_append, h.manager, h.exact.flatMap_current]
    show (x.fedTo .accepted).Perm
      (x.intake.handed.flatMap Prod.snd ++ (x.discarded.flatMap Prod.snd ++ x.intake.accepted ++ []))
    rw [List.append_nil]
    exact h.accepted
  discarded := by
    intro p hp
    rcases List.mem_append.1 hp with hp | hp
    · exact h.discarded p hp
    · obtain ⟨w, hw, rfl⟩ := List.mem_map.1 hp
      rw [h.manager] at hw
      exact h.exact.current w (Option.mem_toList.1 hw)
  tell := h.tell.congr hcounters hlatest

theorem fedTo_fed (worker : Worker) (intake : Intake) (outcome : Outcome) (g : Geometry) (e : Event) :
    ({ x with worker, intake, fed := x.fed ++ [(g, e)] } : Accounts).fedTo outcome =
      x.fedTo outcome ++ if g.outcome e = outcome then [e] else [] := by
  by_cases h : g.outcome e = outcome <;> simp [fedTo, h]

/-- An event is fed. -/
theorem Balanced.feed {session : SessionId} {e : Event} {rest : List Event} (h : x.Balanced)
    (hphase : x.worker.phase = .feed session (e :: rest)) (trace : Trace) :
    Balanced { x with
      worker := ⟨x.worker.pipeline.feed e, .feed session rest, trace⟩
      intake := x.intake.act WindowManager.process (.process e x.shared.control.recording)
      fed := x.fed ++ [(x.worker.pipeline.engine.manager.geometry, e)] } := by
  have hclosed : (x.intake.act WindowManager.process (.process e x.shared.control.recording)).handed.map Prod.fst =
      x.closed ++ (x.intake.manager.process e x.shared.control.recording).closed.toList := by
    rw [Intake.act, List.map_append, Intake.map_fst_handOver]
    rfl
  have houtcome := h.exact.outcome_process e x.shared.control.recording
  refine
    { manager := ?_, exact := h.exact.act (.process e _), received := ?_, fed := ?_, outcomes := ?_, accepted := ?_
      discarded := h.discarded, tell := ?_ }
  · rw [Pipeline.manager_feed, h.manager]
    rfl
  · rw [h.received, hphase]
    rfl
  · show x.used.flatMap Batch.events = (x.fed ++ [_]).map Prod.snd ++ rest
    rw [h.fed, hphase, List.map_append, List.append_assoc]
    rfl
  · rw [List.map_append, ← h.outcomes, h.manager]
    exact congrArg (x.intake.outcomes ++ [·]) houtcome
  · rw [fedTo_fed, h.manager, ← houtcome, Intake.act, List.flatMap_append, Intake.flatMap_snd_handOver]
    refine (h.accepted.append_right _).trans ?_
    -- What was accepted before goes with the first window that is closed, or stays with the current one.
    cases hc : (x.intake.manager.process e x.shared.control.recording).closed.isEmpty with
    | true => simp [hc]
    | false =>
      have hswap : (x.discarded.flatMap Prod.snd ++ x.intake.accepted).Perm
          (x.intake.accepted ++ x.discarded.flatMap Prod.snd) := List.perm_append_comm
      simpa [hc] using ((hswap.append_left (x.intake.handed.flatMap Prod.snd)).append_right _)
  · obtain ⟨hevents, hdropped, hoff, hwindows, hfiles⟩ := x.worker.pipeline.counters_feed e
    have hlatest := x.worker.pipeline.latest_feed e
    rw [h.manager] at hoff hwindows hfiles hlatest
    rw [closed, hclosed]
    refine
      { events := hevents.trans h.tell.events, dropped := hdropped.trans h.tell.dropped
        outOfBounds := ?_, windows := ?_, files := ?_, latest := ?_ }
    · show _ = UInt64.ofNat ((x.intake.outcomes ++ [_]).count Outcome.outOfBounds)
      rw [List.count_append, UInt64.ofNat_add, ← h.tell.outOfBounds]
      exact hoff
    · rw [List.length_append, UInt64.ofNat_add, ← h.tell.windows]
      exact hwindows
    · rw [List.countP_append, UInt64.ofNat_add, ← h.tell.files]
      exact hfiles
    · rw [List.getLast?_append, Option.map_or, ← h.tell.latest]
      exact hlatest

theorem Balanced.step (h : x.Balanced) (hstep : x.worker.step? = some worker) : (x.advance worker).Balanced := by
  obtain ⟨⟨p, phase, trace⟩, intake, received, judged, fed, discarded⟩ := x
  cases phase with
  | head =>
    cases hstep
    refine h.unchanged rfl rfl rfl ?_ ?_ <;> dsimp only <;> split <;> rfl
  | takeReset inHand =>
    cases hstep
    refine h.unchanged rfl rfl rfl ?_ ?_ <;> dsimp only <;> split <;> rfl
  | readWidth inHand =>
    cases hstep
    exact h.unchanged rfl rfl rfl rfl rfl
  | readHeight inHand width =>
    cases hstep
    exact h.drop ⟨width, p.shared.control.height⟩ rfl rfl rfl rfl rfl
  | takeRecordingReset inHand =>
    cases inHand <;> cases hstep <;> refine h.unchanged ?_ ?_ ?_ rfl rfl <;>
      dsimp only [shared] <;> rw [Pipeline.applyRecordingReset_eq]
  | pop =>
    rcases p.shared.pop?_cases with ⟨-, -, hp⟩ | ⟨b, rest, -, -, hp⟩ | ⟨-, hp⟩ <;>
      simp only [Worker.step?, hp] at hstep <;> cases hstep
    · exact h.receive (some b) rfl rfl rfl rfl rfl rfl rfl
    · exact h.receive none rfl rfl rfl rfl rfl rfl rfl
  | check b =>
    by_cases hb : b.session = p.shared.control.session
    · rw [Worker.step?, if_pos hb] at hstep
      cases hstep
      exact h.use rfl hb
    · rw [Worker.step?, if_neg hb] at hstep
      cases hstep
      exact h.turnAway rfl hb
  | feed session rest =>
    cases rest with
    | nil =>
      cases hstep
      exact h.unchanged rfl rfl rfl rfl rfl
    | cons e rest =>
      cases hstep
      exact h.feed rfl _
  | stopped => cases hstep

theorem Balanced.act (h : x.Balanced) (move : EngineMove) : (x.act move).Balanced := by
  cases move with
  | call b =>
    rw [Accounts.act]
    split
    · next hidle =>
      obtain ⟨hbatch, hrest⟩ := Phase.of_isIdle hidle
      exact h.receive b rfl rfl rfl hbatch rfl hrest rfl
    · exact h
  | engine =>
    rw [Accounts.act]
    split
    · exact h
    · next hstep => exact h.step hstep
  | write w => exact h.unchanged rfl rfl rfl rfl rfl
  | files tree => exact h.unchanged rfl rfl rfl rfl rfl

theorem Balanced.run (h : x.Balanced) (moves : List EngineMove) : (x.run moves).Balanced := by
  induction moves generalizing x with
  | nil => exact h
  | cons move rest ih => exact ih (h.act move)

/-! ## The accounts -/

/-- Every event fed is of one kind. -/
theorem perm_fedTo (x : Accounts) :
    (x.fed.map Prod.snd).Perm (x.fedTo .accepted ++ (x.fedTo .outOfBounds ++ x.fedTo .noGeometry)) := by
  unfold fedTo
  induction x.fed with
  | nil => exact .nil
  | cons p rest ih =>
    obtain ⟨g, e⟩ := p
    cases ho : g.outcome e with
    | accepted => simpa [ho] using ih.cons e
    | outOfBounds => simpa [ho] using (ih.cons e).trans List.perm_middle.symm
    | noGeometry =>
      rw [← List.append_assoc] at ih
      simpa [ho] using (ih.cons e).trans List.perm_middle.symm

theorem Balanced.length_fedTo (h : x.Balanced) (outcome : Outcome) :
    (x.fedTo outcome).length = x.intake.outcomes.count outcome := by
  rw [h.outcomes, List.count, List.countP_map, List.countP_eq_length_filter, fedTo, List.length_map]
  congr 2

theorem Balanced.flatMap_windows (h : x.Balanced) :
    x.windows.flatMap Prod.snd =
      x.intake.handed.flatMap Prod.snd ++ (x.discarded.flatMap Prod.snd ++ x.intake.accepted) := by
  rw [windows, h.manager, List.flatMap_append, List.flatMap_append, h.exact.flatMap_current, List.append_assoc]

theorem Balanced.windows (h : x.Balanced) : ∀ p ∈ x.windows, p.1.Accepted p.2 := by
  intro p hp
  rcases List.mem_append.1 hp with hp | hp
  · exact (List.mem_append.1 hp).elim (h.exact.handed p) (h.discarded p)
  · obtain ⟨w, hw, rfl⟩ := List.mem_map.1 hp
    rw [h.manager] at hw
    exact h.exact.current w (Option.mem_toList.1 hw)

/-- Nothing gets lost in the engine, and nothing is counted twice. -/
theorem all_accounted (length : WindowLength) (s : Shared) (moves : List EngineMove) :
    let x := (start length s).run moves
    let p := x.worker.pipeline
    let c := x.shared.counters
    -- Of the batches that came, the ones of the current session are used and the others dropped.
    x.received = x.judged.map Prod.fst ++ x.worker.phase.batch?.toList ∧
    c.events = .ofNat (x.used.map Batch.size).sum ∧
    c.dropped = .ofNat x.turnedAway.length ∧
    -- Besides taking the resets, nothing is done for one that is dropped.
    (∀ b, b.session ≠ x.shared.control.session →
      (p.processBatch b).shared.counters = c.addDropped 1 ∧
      (p.processBatch b).shared.latest = x.shared.latest ∧
      (p.processBatch b).shared.files = x.shared.files ∧
      (p.processBatch b).engine.manager =
        if x.shared.control.resetRequested then p.engine.manager.setGeometry x.shared.control.geometry
        else p.engine.manager) ∧
    -- Every event used is fed. It is drawn in one of the windows, or it was off the sensor, or there was no sensor.
    x.used.flatMap Batch.events = x.fed.map Prod.snd ++ x.worker.phase.rest ∧
    (x.fed.map Prod.snd).Perm (x.windows.flatMap Prod.snd ++ (x.fedTo .outOfBounds ++ x.fedTo .noGeometry)) ∧
    (∀ w ∈ x.windows, w.1.Tells w.2) ∧
    c.outOfBounds = .ofNat (x.fedTo .outOfBounds).length ∧
    -- Every window that is closed is counted, recorded if it should be, and published.
    c.windows = .ofNat x.closed.length ∧
    c.recorded + c.failures = .ofNat (x.closed.countP (·.recording)) ∧
    x.shared.latest = x.closed.getLast?.map Window.publication := by
  intro x p c
  have h : x.Balanced := (balanced_start length s).run moves
  have haccepted := h.accepted
  rw [← h.flatMap_windows] at haccepted
  refine ⟨h.received, h.tell.events, h.tell.dropped, ?_, h.fed, ?_, fun w hw => (h.windows w hw).tells, ?_,
    h.tell.windows, h.tell.files, h.tell.latest⟩
  · intro b hb
    have hsession : p.applyResets.shared.control.session = x.shared.control.session := by
      rw [Pipeline.applyResets_eq]
      rfl
    rw [Pipeline.processBatch_of_ne (hsession ▸ hb), Pipeline.applyResets_eq]
    exact ⟨rfl, rfl, rfl, rfl⟩
  · exact x.perm_fedTo.trans (haccepted.append_right _)
  · rw [h.length_fedTo]
    exact h.tell.outOfBounds

/-! ## Moves and calls -/

theorem worker_advance (x : Accounts) (worker : Worker) : (x.advance worker).worker = worker := by
  unfold advance
  dsimp only
  split <;> rfl

theorem worker_run_engine {w w' : Worker} (hsteps : w.Steps w') :
    ∃ n, ∀ x : Accounts, x.worker = w → (x.run (.replicate n .engine)).worker = w' := by
  induction hsteps using Relation.ReflTransGen.head_induction_on with
  | refl => exact ⟨0, fun x hx => hx⟩
  | head hnext _ ih =>
    obtain ⟨n, hn⟩ := ih
    refine ⟨n + 1, fun x hx => hn (x.act .engine) ?_⟩
    simp only [act, hx, show _ = some _ from hnext, worker_advance]

/-- Without interference a batch is processed as in one call. -/
theorem exists_run_processBatch (hidle : x.worker.phase.isIdle = true) (b : Batch) :
    ∃ n trace, (x.run (.call (some b) :: .replicate n .engine)).worker =
      ⟨x.worker.pipeline.processBatch b, .head, trace⟩ := by
  obtain ⟨trace, hsteps⟩ := Worker.steps_processBatch b x.worker.pipeline x.worker.trace
  obtain ⟨n, hn⟩ := worker_run_engine hsteps
  refine ⟨n, trace, hn (x.act (.call (some b))) ?_⟩
  rw [act, if_pos hidle]

/-- Without interference the resets are taken as in one call. -/
theorem exists_run_applyResets (hidle : x.worker.phase.isIdle = true) :
    ∃ n trace, (x.run (.call none :: .replicate n .engine)).worker = ⟨x.worker.pipeline.applyResets, .pop, trace⟩ := by
  obtain ⟨trace, hsteps⟩ := Worker.steps_applyResets x.worker.pipeline none x.worker.trace
  obtain ⟨n, hn⟩ := worker_run_engine hsteps
  refine ⟨n, trace, hn (x.act (.call none)) ?_⟩
  rw [act, if_pos hidle]

end Accounts

end EventCamera
