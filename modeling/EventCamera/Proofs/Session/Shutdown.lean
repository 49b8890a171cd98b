import EventCamera.Handoff.Callers
import EventCamera.Proofs.Console.Effects
import EventCamera.Proofs.Engine.Steps
/-!
# After shutdown

`shutdown_final`: once the program has been stopped, by a command, by the interpreter or by a signal, nothing starts it
again. Whatever commands are carried out, whoever calls the queue, and whenever the engine takes a step: no batch enters
or leaves the queue, only the batch that the engine had already taken may still be processed, and after it no window is
closed, published or recorded.

No command writes the flag the other way (`Effect.keeps`), a call of the queue looks at it first
(`attempt?_of_not_running`), and the engine looks at it between two batches (`step?_of_not_running`).
-/

namespace EventCamera

/-- What the engine has brought about: the windows closed, the latest frame and the counters of its work. -/
structure Work where
  closed : List (Window × List Origin)
  latest : LatestFrame
  events : UInt64
  outOfBounds : UInt64
  windows : UInt64
  recorded : UInt64
  failures : UInt64

def Worker.work (w : Worker) : Work where
  closed := w.trace.closed
  latest := w.pipeline.shared.latest
  events := w.pipeline.shared.counters.events
  outOfBounds := w.pipeline.shared.counters.outOfBounds
  windows := w.pipeline.shared.counters.windows
  recorded := w.pipeline.shared.counters.recorded
  failures := w.pipeline.shared.counters.failures

/-- The events that the engine may still feed without taking another batch. -/
def Phase.ahead (phase : Phase) : List Event := (phase.batch?.map Batch.events).getD phase.rest

/-! ## One step after shutdown -/

namespace Desk

variable {δ : Type} [BiasFacility δ] {d d' : Desk δ} {c : Command} {reply : Reply}

/-- No command starts the program again or does the work of the engine, and only one that switches the camera off
touches the queue. -/
theorem Effect.keeps (h : d.Effect c reply d') :
    (d.shared.control.running = false → d'.shared.control.running = false) ∧
    (d'.shared.queue.batches = d.shared.queue.batches ∨ c = .acquisitionOff ∧ d'.shared.queue.batches = []) ∧
    d'.shared.latest = d.shared.latest ∧
    ∃ dropped, d'.shared.counters = { d.shared.counters with dropped } := by
  cases h with
  | closed => exact ⟨id, .inr ⟨rfl, rfl⟩, rfl, _, rfl⟩
  | quit => exact ⟨fun _ => rfl, .inl rfl, rfl, _, rfl⟩
  | _ => exact ⟨id, .inl rfl, rfl, _, rfl⟩

end Desk

/-- What a call of the queue finishes with after shutdown. -/
def Sleeper.refusal : Sleeper → CallResult
  | push _ => .pushed .dropped
  | pop => .popped none

theorem Sleeper.attempt?_of_not_running {s : Shared} (call : Sleeper) (h : s.control.running = false) :
    ∃ dropped, call.attempt? s = some (call.refusal, { s with counters.dropped := dropped }) := by
  cases call with
  | push b =>
    rcases s.push?_cases b with ⟨ha, -, -⟩ | ⟨ha, -, -⟩ | ⟨-, hp⟩
    · rw [Control.accepts_of_not_running _ h] at ha
      cases ha
    · rw [Control.accepts_of_not_running _ h] at ha
      cases ha
    · exact ⟨_, by rw [attempt?, hp]; rfl⟩
  | pop =>
    rcases s.pop?_cases with ⟨hr, -, -⟩ | ⟨_, _, hr, -, -⟩ | ⟨-, hp⟩
    · rw [h] at hr
      cases hr
    · rw [h] at hr
      cases hr
    · exact ⟨s.counters.dropped, by rw [attempt?, hp]; rfl⟩

/-- After shutdown the engine goes on with the batch that it has in hand or in progress, and takes no other. -/
theorem Worker.step?_of_not_running {w w' : Worker} (h : w.step? = some w')
    (hr : w.pipeline.shared.control.running = false) :
    w'.pipeline.shared.queue = w.pipeline.shared.queue ∧
    -- It feeds an event.
    ((∃ session e rest, w.phase = .feed session (e :: rest) ∧ w'.phase = .feed session rest) ∨
    -- It begins the batch or drops it.
    (∃ b, w.phase = .check b ∧ w'.phase.batch? = none ∧ w'.phase.rest <+: b.events) ∨
    -- It does neither.
    ((∀ session e rest, w.phase ≠ .feed session (e :: rest)) ∧ (∀ b, w.phase ≠ .check b) ∧
      w'.phase.batch? = w.phase.batch? ∧ w'.phase.rest = w.phase.rest ∧
      w'.work = w.work ∧ w'.pipeline.shared.files = w.pipeline.shared.files)) := by
  cases did_of_step? h with
  | passed hpassing hbatch hrest =>
    exact ⟨rfl, .inr (.inr ⟨fun _ _ _ => Phase.ne_of_isPassing hpassing rfl,
      fun _ => Phase.ne_of_isPassing hpassing rfl, hbatch, hrest, rfl, rfl⟩)⟩
  | dropped hphase =>
    rw [hphase]
    exact ⟨rfl, .inr (.inr ⟨by simp, by simp, rfl, rfl, rfl, rfl⟩)⟩
  | @renumbered inHand hphase =>
    rw [work, hphase, Pipeline.applyRecordingReset_eq]
    refine ⟨rfl, .inr (.inr ⟨by simp, by simp, ?_, ?_, rfl, rfl⟩)⟩ <;> cases inHand <;> rfl
  | took hphase hr' =>
    rw [hr] at hr'
    cases hr'
  | began hphase => exact ⟨rfl, .inr (.inl ⟨_, hphase, rfl, List.prefix_rfl⟩)⟩
  | turnedAway hphase => exact ⟨rfl, .inr (.inl ⟨_, hphase, rfl, List.nil_prefix⟩)⟩
  | @fed session e rest hphase =>
    exact ⟨Pipeline.queue_feed w.pipeline e, .inl ⟨session, e, rest, hphase, rfl⟩⟩

/-! ## Moves -/

/-- How the program is stopped. -/
inductive Stop where
  | quit
  | shutdown
  | signal

def Desk.stop {δ : Type} [BiasFacility δ] (d : Desk δ) : Stop → Desk δ
  | .quit => (d.handle .quit).2
  | .shutdown => d.shutdown
  | .signal => d.write [.shutdown]

theorem Desk.running_stop {δ : Type} [BiasFacility δ] (d : Desk δ) (how : Stop) :
    (d.stop how).shared.control.running = false := by
  cases how <;> rfl

/-- What happens later. -/
inductive LaterMove where
  | handle (c : Command)
  | shutdown
  /-- A single write of a command that is being carried out. -/
  | write (w : Control.Write)
  /-- Somebody calls the queue, or one who sleeps there looks again. -/
  | call (request : Sleeper)
  | clear
  | engine

/-- Whether the move can empty the queue. -/
def LaterMove.clears : LaterMove → Bool
  | handle .acquisitionOff | clear => true
  | _ => false

/-- The interpreter, the queue and the engine after shutdown, with a record of what has happened since. -/
structure Aftermath (δ : Type) where
  worker : Worker
  interpreter : Interpreter δ
  /-- The calls of the queue, each with what it finished with if it did. -/
  calls : List (Sleeper × Option CallResult)
  /-- The batches that the engine has begun or dropped. -/
  judged : List Batch
  /-- The events that it has fed. -/
  fed : List Event

namespace Aftermath

variable {δ : Type}

def shared (x : Aftermath δ) : Shared := x.worker.pipeline.shared

def desk (x : Aftermath δ) : Desk δ := ⟨x.shared, x.interpreter⟩

def setDesk (d : Desk δ) (x : Aftermath δ) : Aftermath δ :=
  { x with worker.pipeline.shared := d.shared, interpreter := d.interpreter }

/-- The program has just been stopped, wherever the engine was and whatever was going on. -/
def stopped [BiasFacility δ] (worker : Worker) (i : Interpreter δ) (how : Stop) : Aftermath δ :=
  let d := Desk.stop ⟨worker.pipeline.shared, i⟩ how
  ⟨{ worker with pipeline.shared := d.shared }, d.interpreter, [], [], []⟩

def advance (x : Aftermath δ) (worker : Worker) : Aftermath δ :=
  match x.worker.phase with
  | .check b => { x with worker, judged := x.judged ++ [b] }
  | .feed _ (e :: _) => { x with worker, fed := x.fed ++ [e] }
  | _ => { x with worker }

theorem worker_advance (x : Aftermath δ) (worker : Worker) : (x.advance worker).worker = worker := by
  unfold advance
  split <;> rfl

def act [BiasFacility δ] (x : Aftermath δ) : LaterMove → Aftermath δ
  | .handle c => x.setDesk (x.desk.handle c).2
  | .shutdown => x.setDesk x.desk.shutdown
  | .write w => x.setDesk (x.desk.write [w])
  | .call request =>
    match request.attempt? x.shared with
    | none => { x with calls := x.calls ++ [(request, none)] }
    | some (result, shared) =>
      { x with worker.pipeline.shared := shared, calls := x.calls ++ [(request, some result)] }
  | .clear => x.setDesk x.desk.clearQueue
  | .engine =>
    match x.worker.step? with
    | none => x
    | some worker => x.advance worker

def run [BiasFacility δ] (x : Aftermath δ) (moves : List LaterMove) : Aftermath δ := moves.foldl act x

/-! ## At most the batch in hand -/

variable {x : Aftermath δ} {phase : Phase}

/-- What has happened since the engine stood at `phase`. -/
structure Final (phase : Phase) (x : Aftermath δ) : Prop where
  running : x.shared.control.running = false
  calls : ∀ c ∈ x.calls, c.2 = some c.1.refusal
  judged : x.judged ++ x.worker.phase.batch?.toList = phase.batch?.toList
  fed : x.fed ++ x.worker.phase.ahead <+: phase.ahead

theorem final_stopped [BiasFacility δ] (worker : Worker) (i : Interpreter δ) (how : Stop) :
    (stopped worker i how).Final worker.phase where
  running := Desk.running_stop _ how
  calls := nofun
  judged := rfl
  fed := List.prefix_rfl

theorem Final.setDesk (h : x.Final phase) {d : Desk δ} (hr : d.shared.control.running = false) :
    (x.setDesk d).Final phase :=
  ⟨hr, h.calls, h.judged, h.fed⟩

theorem Final.engine (h : x.Final phase) {worker : Worker} (hstep : x.worker.step? = some worker) :
    (x.advance worker).Final phase := by
  have hr : worker.pipeline.shared.control.running = false := (Worker.running_step? hstep).trans h.running
  have hjudged := h.judged
  have hfed := h.fed
  unfold advance
  rcases (Worker.step?_of_not_running hstep h.running).2 with ⟨session, e, rest, hphase, hphase'⟩ |
    ⟨b, hphase, hbatch, hrest⟩ | ⟨hfeed, hcheck, hbatch, hrest, -⟩
  · rw [hphase] at hjudged hfed ⊢
    refine ⟨hr, h.calls, ?_, ?_⟩
    · dsimp only
      rwa [hphase']
    · dsimp only
      rw [hphase', List.append_assoc]
      exact hfed
  · rw [hphase] at hjudged hfed ⊢
    refine ⟨hr, h.calls, ?_, ?_⟩
    · dsimp only
      rw [hbatch, List.append_assoc]
      exact hjudged
    · dsimp only
      rw [Phase.ahead, hbatch]
      exact ((List.prefix_append_right_inj _).2 hrest).trans hfed
  · split
    · next hphase => exact absurd hphase (hcheck _)
    · next hphase => exact absurd hphase (hfeed _ _ _)
    · refine ⟨hr, h.calls, ?_, ?_⟩
      · dsimp only
        rwa [hbatch]
      · dsimp only
        rwa [Phase.ahead, hbatch, hrest]

/-! ## After the batch in hand -/

/-- The program has stopped, the engine has no batch in hand or in progress, and it has done no work since `x`. -/
structure Rests (x y : Aftermath δ) : Prop where
  running : y.shared.control.running = false
  batch : y.worker.phase.batch? = none
  rest : y.worker.phase.rest = []
  work : y.worker.work = x.worker.work
  judged : y.judged = x.judged
  fed : y.fed = x.fed

variable {y : Aftermath δ}

/-- Others neither publish nor count the work of the engine. -/
theorem Rests.setShared (h : Rests x y) {s : Shared} (i : Interpreter δ) (calls : List (Sleeper × Option CallResult))
    (hr : s.control.running = false) (hlatest : s.latest = y.shared.latest)
    (hcounters : ∃ dropped, s.counters = { y.shared.counters with dropped }) :
    Rests x { y with worker.pipeline.shared := s, interpreter := i, calls } := by
  obtain ⟨dropped, hcounters⟩ := hcounters
  refine ⟨hr, h.batch, h.rest, ?_, h.judged, h.fed⟩
  rw [← h.work, Worker.work, Worker.work, hcounters, hlatest]
  rfl

/-- The engine does nothing that lasts. -/
theorem Rests.step (h : Rests x y) {worker : Worker} (hstep : y.worker.step? = some worker) :
    Rests x (y.advance worker) ∧ worker.pipeline.shared.files = y.shared.files := by
  have hbatch := h.batch
  have hrest := h.rest
  rcases (Worker.step?_of_not_running hstep h.running).2 with ⟨session, e, rest, hphase, -⟩ |
    ⟨b, hphase, -⟩ | ⟨hfeed, hcheck, hbatch', hrest', hwork, hfiles⟩
  · rw [hphase] at hrest
    cases hrest
  · rw [hphase] at hbatch
    cases hbatch
  · refine ⟨?_, hfiles⟩
    unfold advance
    split
    · next hphase => exact absurd hphase (hcheck _)
    · next hphase => exact absurd hphase (hfeed _ _ _)
    · exact ⟨(Worker.running_step? hstep).trans h.running, hbatch'.trans hbatch, hrest'.trans hrest,
        hwork.trans h.work, h.judged, h.fed⟩

/-! ## Every move -/

variable [BiasFacility δ]

theorem Final.act (h : x.Final phase) (m : LaterMove) : (x.act m).Final phase := by
  cases m with
  | handle c => exact h.setDesk ((Desk.effect_handle c x.desk).keeps.1 h.running)
  | shutdown => exact h.setDesk rfl
  | write w => exact h.setDesk (Control.running_write_of_not_running w h.running)
  | call request =>
    obtain ⟨dropped, hattempt⟩ := request.attempt?_of_not_running h.running
    simp only [Aftermath.act, hattempt]
    refine ⟨h.running, fun c hc => ?_, h.judged, h.fed⟩
    rcases List.mem_append.1 hc with hc | hc
    · exact h.calls c hc
    · rw [List.mem_singleton.1 hc]
  | clear => exact h.setDesk h.running
  | engine =>
    simp only [Aftermath.act]
    split
    · exact h
    · next hstep => exact h.engine hstep

theorem Final.run (h : x.Final phase) (moves : List LaterMove) : (x.run moves).Final phase := by
  induction moves generalizing x with
  | nil => exact h
  | cons m rest ih => exact ih (h.act m)

/-- The queue stays as it is, or a move that clears it does so. -/
theorem queue_act (hr : x.shared.control.running = false) (m : LaterMove) :
    (x.act m).shared.queue.batches = x.shared.queue.batches ∨
      m.clears = true ∧ (x.act m).shared.queue.batches = [] := by
  cases m with
  | handle c =>
    rcases (Desk.effect_handle c x.desk).keeps.2.1 with hq | ⟨rfl, hq⟩
    · exact .inl hq
    · exact .inr ⟨rfl, hq⟩
  | shutdown => exact .inl rfl
  | write w => exact .inl rfl
  | call request =>
    obtain ⟨dropped, hattempt⟩ := request.attempt?_of_not_running hr
    simp only [act, hattempt]
    exact .inl rfl
  | clear => exact .inr ⟨rfl, rfl⟩
  | engine =>
    simp only [act]
    split
    · exact .inl rfl
    · next hstep =>
      rw [shared, worker_advance]
      exact .inl (congrArg HandoffQueue.batches (Worker.step?_of_not_running hstep hr).1)

theorem Final.queue_run (h : x.Final phase) (moves : List LaterMove) :
    (x.run moves).shared.queue.batches = x.shared.queue.batches ∨
      moves.any LaterMove.clears = true ∧ (x.run moves).shared.queue.batches = [] := by
  induction moves generalizing x with
  | nil => exact .inl rfl
  | cons m rest ih =>
    rw [List.any_cons, Bool.or_eq_true]
    rcases ih (h.act m) with hrest | ⟨hclears, hrest⟩
    · rcases queue_act h.running m with hm | ⟨hclears, hm⟩
      · exact .inl (hrest.trans hm)
      · exact .inr ⟨.inl hclears, hrest.trans hm⟩
    · exact .inr ⟨.inr hclears, hrest⟩

theorem Rests.act (h : Rests x y) (m : LaterMove) : Rests x (y.act m) := by
  cases m with
  | handle c =>
    obtain ⟨hrunning, -, hlatest, hcounters⟩ := (Desk.effect_handle c y.desk).keeps
    exact h.setShared _ _ (hrunning h.running) hlatest hcounters
  | shutdown => exact h.setShared _ _ rfl rfl ⟨_, rfl⟩
  | write w => exact h.setShared _ _ (Control.running_write_of_not_running w h.running) rfl ⟨_, rfl⟩
  | call request =>
    obtain ⟨dropped, hattempt⟩ := request.attempt?_of_not_running h.running
    simp only [Aftermath.act, hattempt]
    exact h.setShared _ _ h.running rfl ⟨dropped, rfl⟩
  | clear => exact h.setShared _ _ h.running rfl ⟨_, rfl⟩
  | engine =>
    simp only [Aftermath.act]
    split
    · exact h
    · next hstep => exact (h.step hstep).1

theorem Rests.run (h : Rests x y) (moves : List LaterMove) : Rests x (y.run moves) := by
  induction moves generalizing y with
  | nil => exact h
  | cons m rest ih => exact ih (h.act m)

/-! ## Every run -/

/-- Shutdown is final. However the program was stopped, wherever the engine was then, and whatever happens later. -/
theorem shutdown_final (worker : Worker) (i : Interpreter δ) (how : Stop) (moves : List LaterMove) :
    let y := (stopped worker i how).run moves
    y.shared.control.running = false ∧
    -- No push is taken in, no pop gets a batch, and neither waits.
    (∀ c ∈ y.calls, c.2 = some c.1.refusal) ∧
    -- What was queued stays there, unless somebody clears the queue.
    (y.shared.queue.batches = worker.pipeline.shared.queue.batches ∨
      moves.any LaterMove.clears = true ∧ y.shared.queue.batches = []) ∧
    -- The engine works off the batch that it had in hand or in progress, and no other.
    y.judged ++ y.worker.phase.batch?.toList = worker.phase.batch?.toList ∧
    y.fed <+: worker.phase.ahead ∧
    -- After that it does no work: no window is closed, published, recorded or counted any more.
    (y.worker.phase.batch? = none → y.worker.phase.rest = [] → ∀ later, let z := y.run later
      z.worker.work = y.worker.work ∧ z.judged = y.judged ∧ z.fed = y.fed ∧
      ∀ worker', z.worker.step? = some worker' → worker'.pipeline.shared.files = z.shared.files) := by
  intro y
  have hstopped := final_stopped worker i how
  have h : y.Final worker.phase := hstopped.run moves
  refine ⟨h.running, h.calls, ?_, h.judged, (List.prefix_append _ _).trans h.fed, ?_⟩
  · have hqueue := hstopped.queue_run moves
    have hstop : (stopped worker i how).shared.queue = worker.pipeline.shared.queue := by cases how <;> rfl
    rwa [hstop] at hqueue
  · intro hbatch hrest later z
    have hz : Rests y z := Rests.run ⟨h.running, hbatch, hrest, rfl, rfl, rfl⟩ later
    exact ⟨hz.work, hz.judged, hz.fed, fun _ hstep => (hz.step hstep).2⟩

end Aftermath

end EventCamera
