import EventCamera.Proofs.Session.Parties
/-!
# Sessions do not mix

Whatever the order of the moves, a window shows events of one session only: `one_session_per_window`.

Three facts carry the proof. While the camera is off the queue is empty, except within the command that
switches it off, so every queued batch belongs to the current session (`Orderly`). When the session
changes, a reset is requested before anything of the new session can be queued; so an event in the
current window is of the current session or is about to be dropped with the window (`Fresh`). And the
engine takes resets between taking a batch and beginning it (`InHand`).
-/

namespace EventCamera

/-- All events came in batches of the given session. -/
def AllOf (session : SessionId) (origins : List Origin) : Prop := ∀ o ∈ origins, o.session = session

theorem allOf_nil (session : SessionId) : AllOf session [] := by
  intro o ho
  cases ho

namespace Parties

/-! ## What the console still has to do -/

/-- Nobody delivers and nothing is queued. -/
def Quiet (s : Parties) : Prop := s.camera = none ∧ s.shared.queue.batches = []

/-- The rest of a command begins a session only while it is quiet, requests a reset right after that,
and leaves it quiet if it leaves the camera off. `alone` and `quiet` are what is known before it, and
`on` is whether acquisition is on. -/
def Sound (alone quiet : Prop) : List ConsoleStep → (on : Bool) → Prop
  | [], on => on = false → quiet
  | .write .shutdown :: _, _ => True
  | .write .beginSession :: rest, on =>
    quiet ∧ (∃ after, rest = .write .requestReset :: after) ∧ Sound alone quiet rest on
  | .write (.acquisition on) :: rest, _ => Sound alone quiet rest on
  | .write _ :: rest, on => Sound alone quiet rest on
  | .clear :: rest, on => Sound alone alone rest on
  | .join :: rest, on => Sound True quiet rest on
  | .start :: rest, on => Sound False False rest on

theorem Sound.mono {alone quiet alone' quiet' : Prop} {steps : List ConsoleStep} {on : Bool}
    (h : Sound alone quiet steps on) (ha : alone → alone') (hq : quiet → quiet') :
    Sound alone' quiet' steps on := by
  fun_induction Sound alone quiet steps on generalizing alone' quiet' with
  | case1 alone quiet on => exact fun hon => hq (h hon)
  | case2 => trivial
  | case3 alone quiet rest on ih => exact ⟨hq h.1, h.2.1, ih h.2.2 ha hq⟩
  | case4 alone quiet on rest on' ih => exact ih h ha hq
  | case5 alone quiet w rest on hw₁ hw₂ hw₃ ih =>
    rw [Sound]
    · exact ih h ha hq
    all_goals assumption
  | case6 alone quiet rest on ih => exact ih h ha ha
  | case7 alone quiet rest on ih => exact ih h id hq
  | case8 alone quiet rest on ih => exact ih h id id

theorem sound_opening (g : Geometry) (starts : Bool) {alone quiet : Prop} (h : quiet) :
    Sound alone quiet (ConsoleStep.opening g starts) false := by
  cases starts <;>
    exact ⟨h, ⟨_, rfl⟩, by simp [Sound, h]⟩

theorem sound_closing (alone quiet : Prop) (on : Bool) : Sound alone quiet ConsoleStep.closing on :=
  fun _ => trivial

theorem sound_ending (alone quiet : Prop) (on : Bool) : Sound alone quiet ConsoleStep.ending on :=
  trivial

/-! ## The invariant -/

/-- The queue holds batches of the current session, and the rest of the command is sound. -/
structure Orderly (s : Parties) : Prop where
  queued : ∀ b ∈ s.shared.queue.batches, b.session = s.shared.control.session
  script : Sound (s.camera = none) s.Quiet s.console s.shared.control.acquisition

/-- Events of the session may stand in the current window: it is the current session, or a reset is
pending or about to be requested. -/
def Fresh (s : Parties) (session : SessionId) : Prop :=
  session = s.shared.control.session ∨ s.shared.control.resetRequested = true ∨
    (s.Quiet ∧ ∃ rest, s.console = .write .requestReset :: rest)

/-- A batch that the engine has taken goes with the current window, or the window will be dropped. -/
def InHand (s : Parties) : Phase → Prop
  | .takeReset (some b) => s.shared.control.resetRequested = true ∨ AllOf b.session s.worker.trace.current
  | .takeRecordingReset (some b) | .check b => AllOf b.session s.worker.trace.current
  | .feed session _ =>
    AllOf session s.worker.trace.current ∧ (s.shared.control.running = true → s.Fresh session)
  | _ => True

/-- Whether the engine is reading the sensor size, after which it drops the current window. -/
def Reading : Phase → Prop
  | .readWidth _ | .readHeight _ _ => True
  | _ => False

/-- Sessions are kept apart, and will be. After shutdown nothing is queued or taken any more. -/
structure Isolated (s : Parties) : Prop where
  exact : s.worker.Exact
  closed : ∀ p ∈ s.worker.trace.closed, ∃ session, AllOf session p.2
  current : ∃ session, AllOf session s.worker.trace.current
  orderly : s.shared.control.running = true → s.Orderly
  pending : s.shared.control.running = true → ¬Reading s.worker.phase →
    ∀ o ∈ s.worker.trace.current, s.Fresh o.session
  inHand : s.InHand s.worker.phase

theorem isolated_start (length : WindowLength) (capacity : Nat) (s : Shared) :
    (start length capacity s).Isolated where
  exact := Worker.exact_start length _
  closed := by simp [start, Worker.start, Trace.empty]
  current := ⟨0, by simp [AllOf, start, Worker.start, Trace.empty]⟩
  orderly _ := ⟨by simp [start, Worker.start, shared, Pipeline.start, HandoffQueue.new], fun _ => ⟨rfl, rfl⟩⟩
  pending := by simp [start, Worker.start, Trace.empty]
  inHand := trivial

/-! ## Moves of the console and the camera -/

variable {s s' : Parties}

/-- What a move does that is not the engine's: the program does not start to run again, a pending reset
stays, and sound parties stay sound. -/
structure Spares (s s' : Parties) : Prop where
  phase : s'.worker.phase = s.worker.phase
  trace : s'.worker.trace = s.worker.trace
  engine : s'.worker.pipeline.engine = s.worker.pipeline.engine
  running : s'.shared.control.running = true → s.shared.control.running = true
  reset : s.shared.control.resetRequested = true → s'.shared.control.resetRequested = true
  orderly : s'.shared.control.running = true → s.Orderly → s'.Orderly
  fresh : s'.shared.control.running = true → s.Orderly → ∀ session, s.Fresh session → s'.Fresh session

theorem Isolated.spares (h : s.Isolated) (hs : Spares s s') : s'.Isolated where
  exact := by
    rw [Worker.Exact, hs.trace, hs.engine]
    exact h.exact
  closed := hs.trace ▸ h.closed
  current := hs.trace ▸ h.current
  orderly hr := hs.orderly hr (h.orderly (hs.running hr))
  pending hr hp o ho := by
    rw [hs.phase] at hp
    rw [hs.trace] at ho
    exact hs.fresh hr (h.orderly (hs.running hr)) _ (h.pending (hs.running hr) hp o ho)
  inHand := by
    have hi := h.inHand
    rw [hs.phase]
    cases hp : s.worker.phase with
    | takeReset inHand =>
      rw [hp] at hi
      cases inHand with
      | none => trivial
      | some b => exact hi.imp hs.reset (hs.trace ▸ ·)
    | takeRecordingReset inHand =>
      rw [hp] at hi
      cases inHand with
      | none => trivial
      | some b =>
        rw [InHand, hs.trace]
        exact hi
    | check b =>
      rw [hp] at hi
      rw [InHand, hs.trace]
      exact hi
    | feed session rest =>
      rw [hp] at hi
      exact ⟨hs.trace ▸ hi.1, fun hr => hs.fresh hr (h.orderly (hs.running hr)) _ (hi.2 (hs.running hr))⟩
    | _ => trivial

theorem Spares.refl (s : Parties) : Spares s s :=
  ⟨rfl, rfl, rfl, id, id, fun _ => id, fun _ _ _ => id⟩

/-- An idle console begins a command that is sound as things stand. -/
theorem spares_begin {command : List ConsoleStep} {possible : Bool}
    (hsound : possible = true → s.console = [] → s.Orderly →
      Sound (s.camera = none) s.Quiet command s.shared.control.acquisition) :
    Spares s (s.begin command possible) := by
  unfold begin
  split
  · next h =>
    refine ⟨rfl, rfl, rfl, id, id, fun _ ho => ⟨ho.queued, hsound h.2 h.1 ho⟩, fun _ _ session hf => ?_⟩
    rcases hf with hs | hr | ⟨-, rest, hc⟩
    · exact .inl hs
    · exact .inr (.inl hr)
    · rw [h.1] at hc
      cases hc
  · exact .refl s

theorem spares_switchOn (s : Parties) (g : Geometry) (starts : Bool) : Spares s (s.act (.switchOn g starts)) := by
  refine spares_begin fun hoff hc ho => ?_
  have hq := ho.script
  simp only [Bool.not_eq_true'] at hoff
  rw [hc] at hq
  rw [hoff] at hq ⊢
  exact sound_opening g starts (hq rfl)

theorem spares_switchOff (s : Parties) : Spares s (s.act .switchOff) :=
  spares_begin fun _ _ _ => sound_closing _ _ _

theorem spares_shutDown (s : Parties) : Spares s (s.act .shutDown) :=
  spares_begin fun _ _ _ => sound_ending _ _ _

theorem spares_set (s : Parties) (w : Control.Write) : Spares s (s.act (.set w)) := by
  cases w with
  | shutdown => exact ⟨rfl, rfl, rfl, nofun, id, nofun, nofun⟩
  | recording on => exact ⟨rfl, rfl, rfl, id, id, fun _ ho => ⟨ho.queued, ho.script⟩, fun _ _ _ => id⟩
  | requestRecordingReset =>
    exact ⟨rfl, rfl, rfl, id, id, fun _ ho => ⟨ho.queued, ho.script⟩, fun _ _ _ => id⟩
  | recordingDir dir => exact ⟨rfl, rfl, rfl, id, id, fun _ ho => ⟨ho.queued, ho.script⟩, fun _ _ _ => id⟩
  | _ => exact .refl s

/-- What a camera does while it delivers: it may push, and the console is not quiet. -/
theorem spares_of_camera {camera camera' : Camera} (hc : s.camera = some camera) (s'' : Shared)
    (hcontrol : s''.control = s.shared.control)
    (hqueued : (∀ b ∈ s.shared.queue.batches, b.session = s.shared.control.session) →
      ∀ b ∈ s''.queue.batches, b.session = s.shared.control.session) :
    Spares s { s.setShared s'' with camera := some camera' } := by
  have hquiet : ¬s.Quiet := fun hq => by
    rw [hq.1] at hc
    cases hc
  have halone : ¬s.camera = none := by simp [hc]
  refine ⟨rfl, rfl, rfl, fun hr => ?_, fun hr => ?_, fun _ ho => ⟨?_, ?_⟩, fun _ _ session hf => ?_⟩
  · rw [← hcontrol]
    exact hr
  · exact (congrArg Control.resetRequested hcontrol).trans hr
  · intro b hb
    exact (hqueued ho.queued b hb).trans (congrArg Control.session hcontrol).symm
  · show Sound _ _ s.console s''.control.acquisition
    rw [hcontrol]
    exact ho.script.mono (absurd · halone) (absurd · hquiet)
  · rcases hf with hs | hr | ⟨hq, -⟩
    · exact .inl (hs.trans (congrArg Control.session hcontrol).symm)
    · exact .inr (.inl ((congrArg Control.resetRequested hcontrol).trans hr))
    · exact absurd hq hquiet

theorem spares_deliver (s : Parties) (events : List Event) : Spares s (s.act (.deliver events)) := by
  simp only [act]
  split
  · next hc => exact spares_of_camera hc s.shared rfl id
  · exact .refl s

theorem spares_push (s : Parties) : Spares s (s.act .push) := by
  simp only [act]
  split
  · next session events hc =>
    rcases s.shared.push?_cases ⟨session, events⟩ with ⟨-, -, hp⟩ | ⟨ha, -, hp⟩ | ⟨-, hp⟩ <;> rw [hp]
    · exact .refl s
    · refine spares_of_camera hc _ rfl fun hq b hb => ?_
      rcases List.mem_append.1 hb with hb | hb
      · exact hq b hb
      · rw [List.mem_singleton.1 hb]
        simp only [Control.accepts, Bool.and_eq_true, beq_iff_eq] at ha
        exact ha.2.symm
    · exact spares_of_camera hc _ rfl id
  · exact .refl s

/-- The console does a step of its command. A pending request keeps an event fresh; of the steps, one
that begins a session finds it quiet, with the request for a reset next, and a request that was next
is made. -/
theorem spares_perform {step : ConsoleStep} {rest : List ConsoleStep} (hc : s.console = step :: rest) :
    Spares s (s.perform rest step) := by
  have hscript : s.Orderly → Sound (s.camera = none) s.Quiet (step :: rest) s.shared.control.acquisition :=
    fun ho => hc ▸ ho.script
  have hfresh : ∀ {session}, s.Fresh session → step ≠ .write .requestReset →
      session = s.shared.control.session ∨ s.shared.control.resetRequested = true := by
    rintro session (hs | hr | ⟨-, after, ha⟩) hne
    · exact .inl hs
    · exact .inr hr
    · rw [hc] at ha
      exact absurd (List.cons.inj ha).1 hne
  cases step with
  | write w =>
    cases w with
    | shutdown => exact ⟨rfl, rfl, rfl, nofun, id, nofun, nofun⟩
    | beginSession =>
      refine ⟨rfl, rfl, rfl, id, id, fun _ ho => ?_, fun _ ho session hf => ?_⟩
      · obtain ⟨hquiet, -, hrest⟩ := hscript ho
        refine ⟨fun b hb => ?_, hrest⟩
        rw [show (s.perform rest (.write .beginSession)).shared.queue.batches = [] from hquiet.2] at hb
        cases hb
      · obtain ⟨hquiet, hrequest, -⟩ := hscript ho
        exact .inr (.inr ⟨hquiet, hrequest⟩)
    | requestReset =>
      exact ⟨rfl, rfl, rfl, id, fun _ => rfl, fun _ ho => ⟨ho.queued, hscript ho⟩, fun _ _ _ _ => .inr (.inl rfl)⟩
    | _ =>
      exact ⟨rfl, rfl, rfl, id, id, fun _ ho => ⟨ho.queued, hscript ho⟩,
        fun _ _ _ hf => (hfresh hf (by simp)).imp id .inl⟩
  | clear =>
    refine ⟨rfl, rfl, rfl, id, id, fun _ ho => ⟨nofun, ?_⟩, fun _ _ _ hf => (hfresh hf (by simp)).imp id .inl⟩
    have hcleared : Sound (s.camera = none) (s.camera = none) rest s.shared.control.acquisition := hscript ho
    exact hcleared.mono id fun h => ⟨h, rfl⟩
  | join =>
    simp only [perform]
    split
    · exact .refl s
    · refine ⟨rfl, rfl, rfl, id, id, fun _ ho => ⟨ho.queued, ?_⟩, fun _ _ _ hf => (hfresh hf (by simp)).imp id .inl⟩
      have hjoined : Sound True s.Quiet rest s.shared.control.acquisition := hscript ho
      exact hjoined.mono (fun _ => rfl) fun h => ⟨rfl, h.2⟩
  | start =>
    refine ⟨rfl, rfl, rfl, id, id, fun _ ho => ⟨ho.queued, ?_⟩, fun _ _ _ hf => (hfresh hf (by simp)).imp id .inl⟩
    have hstarted : Sound False False rest s.shared.control.acquisition := hscript ho
    exact hstarted.mono False.elim False.elim

theorem spares_console (s : Parties) : Spares s (s.act .console) := by
  simp only [act]
  split
  · exact .refl s
  · next hc => exact spares_perform hc

theorem spares_act (s : Parties) {m : Move} (hm : m ≠ .engine) : Spares s (s.act m) := by
  cases m with
  | switchOn g starts => exact spares_switchOn s g starts
  | switchOff => exact spares_switchOff s
  | shutDown => exact spares_shutDown s
  | console => exact spares_console s
  | set w => exact spares_set s w
  | deliver events => exact spares_deliver s events
  | push => exact spares_push s
  | engine => exact absurd rfl hm

/-! ## Steps of the engine -/

variable {worker : Worker}

theorem Quiet.step (hw : s.worker.step? = some worker) (h : s.Quiet) : Quiet { s with worker } := by
  refine ⟨h.1, List.subset_nil.1 ?_⟩
  rw [← h.2]
  exact (Worker.frame_step? hw).2.1

theorem Orderly.step (hw : s.worker.step? = some worker) (h : s.Orderly) : Orderly { s with worker } := by
  refine ⟨fun b hb => ?_, ?_⟩
  · exact (h.queued b ((Worker.frame_step? hw).2.1 hb)).trans (Worker.session_step? hw).symm
  · show Sound _ _ s.console worker.pipeline.shared.control.acquisition
    rw [Worker.acquisition_step? hw]
    exact h.script.mono id (Quiet.step hw)

theorem Fresh.step (hw : s.worker.step? = some worker) {session : SessionId}
    (hreset : s.shared.control.resetRequested = true → worker.pipeline.shared.control.resetRequested = true)
    (h : s.Fresh session) : Fresh { s with worker } session := by
  rcases h with hs | hr | ⟨hq, hn⟩
  · exact .inl (hs.trans (Worker.session_step? hw).symm)
  · exact .inr (.inl (hreset hr))
  · exact .inr (.inr ⟨hq.step hw, hn⟩)

/-- A step that drops no request and feeds no event. -/
theorem Isolated.step_of_trace (h : s.Isolated) (hw : s.worker.step? = some worker)
    (htrace : worker.trace = s.worker.trace)
    (hreset : s.shared.control.resetRequested = true → ¬Reading worker.phase →
      worker.pipeline.shared.control.resetRequested = true)
    (hreading : ¬Reading worker.phase → ¬Reading s.worker.phase)
    (hinHand : InHand { s with worker } worker.phase) : Isolated { s with worker } where
  exact := Worker.exact_step? h.exact hw
  closed := htrace ▸ h.closed
  current := htrace ▸ h.current
  orderly hr := (h.orderly ((Worker.running_step? hw).symm.trans hr)).step hw
  pending hr hp o ho := by
    have hpending := h.pending ((Worker.running_step? hw).symm.trans hr) (hreading hp)
    exact (hpending o (htrace ▸ ho)).step hw (hreset · hp)
  inHand := hinHand

/-- A batch is taken. It is of the current session, so it goes with the current window unless a reset is
pending. -/
theorem Isolated.take {b : Batch} {rest : List Batch} (h : s.Isolated) (hphase : s.worker.phase = .pop)
    (hr : s.shared.control.running = true) (hb : s.shared.queue.batches = b :: rest) :
    s.shared.control.resetRequested = true ∨ AllOf b.session s.worker.trace.current := by
  by_cases hreset : s.shared.control.resetRequested = true
  · exact .inl hreset
  · refine .inr fun o ho => ?_
    have hsession : b.session = s.shared.control.session := (h.orderly hr).queued b (by simp [hb])
    rcases h.pending hr (by simp [hphase, Reading]) o ho with hs | hs | ⟨hq, -⟩
    · rw [hs, hsession]
    · exact absurd hs hreset
    · rw [hq.2] at hb
      cases hb

/-- An event of a batch is fed. -/
theorem Isolated.feed {session : SessionId} {e : Event} {rest : List Event} (h : s.Isolated)
    (hphase : s.worker.phase = .feed session (e :: rest)) (hw : s.worker.step? = some worker)
    (htrace : ∃ step, worker.trace = s.worker.trace.feed step ⟨session, e⟩)
    (hreset : worker.pipeline.shared.control.resetRequested = s.shared.control.resetRequested)
    (hphase' : worker.phase = .feed session rest) : Isolated { s with worker } := by
  obtain ⟨step, htrace⟩ := htrace
  have hi := h.inHand
  rw [hphase] at hi
  have hall : AllOf session worker.trace.current := by
    intro o ho
    rw [htrace] at ho
    rcases Trace.mem_current_feed ho with ho | rfl
    · exact hi.1 o ho
    · rfl
  have hfresh : worker.pipeline.shared.control.running = true → Fresh { s with worker } session := fun hr =>
    (hi.2 ((Worker.running_step? hw).symm.trans hr)).step hw hreset.trans
  refine ⟨Worker.exact_step? h.exact hw, fun p hp => ?_, ⟨session, hall⟩, fun hr => ?_, fun hr _ o ho => ?_, ?_⟩
  · rw [htrace] at hp
    rcases Trace.mem_closed_feed hp with hp | hp | hp
    · exact h.closed p hp
    · exact ⟨session, hp ▸ hi.1⟩
    · exact ⟨session, by simp [AllOf, hp]⟩
  · exact (h.orderly ((Worker.running_step? hw).symm.trans hr)).step hw
  · rw [hall o ho]
    exact hfresh hr
  · rw [hphase']
    exact ⟨hall, hfresh⟩

/-- Every step of the engine keeps sessions apart. -/
theorem Isolated.step (h : s.Isolated) (hw : s.worker.step? = some worker) : Isolated { s with worker } := by
  have hi := h.inHand
  obtain ⟨⟨p, phase, trace⟩, console, camera⟩ := s
  cases phase with
  | head =>
    cases hr : p.shared.control.running <;> simp only [Worker.step?, hr] at hw <;> cases hw <;>
      exact h.step_of_trace (by simp [Worker.step?, hr]) rfl (fun hr _ => hr) (fun _ => id) trivial
  | takeReset inHand =>
    cases hr : p.shared.control.resetRequested <;> simp only [Worker.step?, Control.takeReset, hr] at hw <;>
      cases hw
    · -- No request is pending, so the batch in hand goes with the window.
      refine h.step_of_trace (by simp [Worker.step?, Control.takeReset, hr]) rfl (fun hr' _ => ?_) (fun _ => id) ?_
      · exact absurd hr' (by simp [shared, hr])
      · cases inHand with
        | none => trivial
        | some b => exact hi.resolve_left (by simp [shared, hr])
    · -- The request is gone, but the window stays until the size has been read.
      exact h.step_of_trace (by simp [Worker.step?, Control.takeReset, hr]) rfl (fun _ hread => absurd trivial hread)
        (fun _ => id) trivial
  | readWidth inHand =>
    cases hw
    exact h.step_of_trace rfl rfl (fun hr _ => hr) (fun hread => absurd trivial hread) trivial
  | readHeight inHand width =>
    -- The window is dropped: any batch may come next.
    cases hw
    refine ⟨Worker.exact_step? h.exact rfl, h.closed, ⟨0, allOf_nil 0⟩, fun hr => (h.orderly hr).step rfl,
      fun _ _ o ho => absurd ho List.not_mem_nil, ?_⟩
    cases inHand with
    | none => trivial
    | some b => exact allOf_nil b.session
  | takeRecordingReset inHand =>
    cases inHand with
    | none =>
      cases hw
      refine h.step_of_trace rfl rfl (fun hr _ => ?_) (fun _ => id) trivial
      rw [Pipeline.applyRecordingReset_eq]
      exact hr
    | some b =>
      cases hw
      refine h.step_of_trace rfl rfl (fun hr _ => ?_) (fun _ => id) hi
      rw [Pipeline.applyRecordingReset_eq]
      exact hr
  | pop =>
    rcases p.shared.pop?_cases with ⟨-, -, hp⟩ | ⟨b, rest, hr, hb, hp⟩ | ⟨-, hp⟩ <;>
      simp only [Worker.step?, hp] at hw <;> cases hw
    · exact h.step_of_trace (by simp [Worker.step?, hp]) rfl (fun hr _ => hr) (fun _ => id) (h.take rfl hr hb)
    · exact h.step_of_trace (by simp [Worker.step?, hp]) rfl (fun hr _ => hr) (fun _ => id) trivial
  | check b =>
    by_cases hs : b.session = p.shared.control.session <;> simp only [Worker.step?, hs, if_true, if_false] at hw <;>
      cases hw
    · refine h.step_of_trace (by simp [Worker.step?, hs]) rfl (fun hr _ => hr) (fun _ => id) ?_
      exact ⟨hs ▸ hi, fun _ => .inl rfl⟩
    · exact h.step_of_trace (by simp [Worker.step?, hs]) rfl (fun hr _ => hr) (fun _ => id) trivial
  | feed session rest =>
    cases rest with
    | nil =>
      cases hw
      exact h.step_of_trace rfl rfl (fun hr _ => hr) (fun _ => id) trivial
    | cons e rest =>
      cases hw
      refine h.feed rfl rfl ⟨_, rfl⟩ ?_ rfl
      rw [Pipeline.control_feed]
      rfl
  | stopped => cases hw

/-! ## Every run -/

theorem Isolated.act (h : s.Isolated) (m : Move) : (s.act m).Isolated := by
  by_cases hm : m = .engine
  · subst hm
    rw [Parties.act]
    split
    · exact h
    · next hw => exact h.step hw
  · exact h.spares (spares_act s hm)

theorem Isolated.run (h : s.Isolated) (moves : List Move) : (s.run moves).Isolated := by
  induction moves generalizing s with
  | nil => exact h
  | cons m rest ih => exact ih (h.act m)

/-- Sessions do not mix: in whatever order the parties move, every window ever closed and the current one
show exactly the events the trace has for them, and these are of one session. -/
theorem one_session_per_window (length : WindowLength) (capacity : Nat) (s : Shared) (moves : List Move) :
    let t := ((start length capacity s).run moves).worker
    (∀ p ∈ t.trace.closed, p.1.Drawn (p.2.map Origin.event) ∧ ∃ session, AllOf session p.2) ∧
    (∀ w, t.pipeline.engine.manager.current = some w → w.Drawn (t.trace.current.map Origin.event)) ∧
    ∃ session, AllOf session t.trace.current := by
  intro t
  have h : ((start length capacity s).run moves).Isolated := (isolated_start length capacity s).run moves
  exact ⟨fun p hp => ⟨h.exact.closed p hp, h.closed p hp⟩, h.exact.current, h.current⟩

end Parties

end EventCamera
