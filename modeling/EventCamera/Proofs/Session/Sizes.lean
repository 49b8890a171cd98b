import EventCamera.Proofs.Session.Display
import EventCamera.Proofs.Session.Isolation
/-!
# Sizes of the windows of a session

Sources may differ in size. The console stores the size of a source as two writes and begins its session after them;
the engine reads the two sides one after the other when it takes a reset. A reset that is still pending from the last
time the camera was switched off may be taken between those writes, with a batch of the old session in hand.

`sized_by_source`: in whatever order the parties move, every window with an event of a session has the size of the
source that was opened for that session, unless its size was read while the console was storing the next one. Then each
side is that of the one or the other. `not_sized_by_source`: this happens, and the frame is published.

`SourceStage` says what the control state tells of the size while a command is carried out, so that a size read in a
session fits that session (`SourceStage.reads`). A size that was read in an earlier one will be read again before a
batch is taken: `Coherent.pending` keeps this with the freshness that keeps sessions apart, and `Due` lets a batch in
hand vouch for nothing once its session is over.
-/

namespace EventCamera

namespace WindowManager

/-- All windows of a manager have the size that it has. -/
theorem geometry_process {m : WindowManager} (hsize : ∀ w, m.current = some w → w.canvas.geometry = m.geometry)
    (hstop : ∀ w, m.current = some w → w.stop = w.start.plus m.length) (e : Event) (recording : Bool) :
    (m.process e recording).manager.geometry = m.geometry ∧
    (∀ w, (m.process e recording).manager.current = some w → w.canvas.geometry = m.geometry) ∧
    ∀ w ∈ (m.process e recording).closed.toList, w.canvas.geometry = m.geometry := by
  cases hg : m.geometry.isEmpty with
  | true =>
    rw [process_of_isEmpty hg]
    exact ⟨rfl, hsize, nofun⟩
  | false =>
    cases hc : m.current with
    | none =>
      rw [process_of_idle hg hc]
      refine ⟨rfl, ?_, nofun⟩
      rintro w ⟨⟩
      exact Window.geometry_canvas_add ..
    | some w =>
      rw [process_of_current hg hc (hstop w hc)]
      refine ⟨rfl, ?_, ?_⟩
      · rintro v ⟨⟩
        rw [Window.geometry_canvas_add, Window.geometry_canvas_ahead, hsize w hc]
      · intro v hv
        obtain ⟨k, -, rfl⟩ := List.mem_map.1 hv
        rw [Window.geometry_canvas_ahead, hsize w hc]

end WindowManager

/-- The windows that an event closes are added in order, the first of them with the events so far. -/
theorem Trace.closed_feed (step : WindowManager.Step) (o : Origin) (t : Trace) :
    ∃ new, (t.feed step o).closed = t.closed ++ new ∧ new.map Prod.fst = step.closed.toList ∧
      ∀ p ∈ new, p.2 = t.current ∨ p.2 = [] := by
  unfold feed
  split
  · next h =>
    refine ⟨[], ?_, h.symm, nofun⟩
    split <;> simp
  · next w skipped h =>
    refine ⟨(w, t.current) :: skipped.map (·, []), rfl, ?_, ?_⟩
    · simp [h, Function.comp_def]
    · rintro p hp
      rcases List.mem_cons.1 hp with rfl | hp
      · exact .inl rfl
      · obtain ⟨v, -, rfl⟩ := List.mem_map.1 hp
        exact .inr rfl

/-! ## Which size fits a session -/

/-- A side is that of the source of the session, or of the next source if it was read in a race. -/
def FitsSide (sizes : List Geometry) (raced : Bool) (session : SessionId) (side : Geometry → UInt32) (v : UInt32) :
    Prop :=
  ∃ k ≤ raced.toNat, sizes[session.toNat + k]?.map side = some v

/-- Both sides fit the session. -/
structure Fits (sizes : List Geometry) (raced : Bool) (session : SessionId) (g : Geometry) : Prop where
  width : FitsSide sizes raced session Geometry.width g.width
  height : FitsSide sizes raced session Geometry.height g.height

section

variable {sizes sizes' : List Geometry} {raced raced' : Bool} {session : SessionId} {g : Geometry}

theorem FitsSide.mono {side : Geometry → UInt32} {v : UInt32} (h : FitsSide sizes raced session side v)
    (hsizes : sizes <+: sizes') (hraced : raced = true → raced' = true) : FitsSide sizes' raced' session side v := by
  obtain ⟨k, hk, hv⟩ := h
  refine ⟨k, hk.trans ?_, ?_⟩
  · cases raced with
    | false => exact Nat.zero_le _
    | true => rw [hraced rfl]
  · obtain ⟨g, hg, rfl⟩ := Option.map_eq_some_iff.1 hv
    obtain ⟨after, rfl⟩ := hsizes
    obtain ⟨hlt, -⟩ := List.getElem?_eq_some_iff.1 hg
    rw [List.getElem?_append_left hlt, hg]
    rfl

theorem Fits.mono (h : Fits sizes raced session g) (hsizes : sizes <+: sizes') : Fits sizes' raced session g :=
  ⟨h.width.mono hsizes id, h.height.mono hsizes id⟩

/-- Without a race the size is that of the source of the session. -/
theorem Fits.eq_source (h : Fits sizes false session g) : sizes[session.toNat]? = some g := by
  obtain ⟨⟨k, hk, hw⟩, ⟨l, hl, hh⟩⟩ := h
  obtain rfl : k = 0 := Nat.le_zero.1 hk
  obtain rfl : l = 0 := Nat.le_zero.1 hl
  obtain ⟨source, hs, hw⟩ := Option.map_eq_some_iff.1 hw
  rw [hs] at hh
  rw [Nat.add_zero] at hs
  rw [hs]
  cases source
  cases g
  cases hw
  cases hh
  rfl

end

/-! ## What the control state tells of the size -/

namespace ConsoleStep

/-- Whether the step belongs to taking over the size and the session of a source. -/
def resizes : ConsoleStep → Bool
  | write (.width _) | write (.height _) | write .beginSession => true
  | _ => false

/-- Whether a side of the next source is stored and its session has not begun. -/
def storing : List ConsoleStep → Bool
  | write (.height _) :: _ | write .beginSession :: _ => true
  | _ => false

end ConsoleStep

/-- How far the console is with the next source, by the steps that it has still to do. -/
inductive SourceStage (sizes : List Geometry) (c : Control) : List ConsoleStep → Prop
  /-- The last source has its session, and its size is stored. -/
  | settled {before : List Geometry} {steps : List ConsoleStep} (hsizes : sizes = before ++ [c.geometry])
      (hsession : c.session.toNat = before.length) (hsteps : ∀ step ∈ steps, step.resizes = false) :
      SourceStage sizes c steps
  /-- Nothing of the next source is stored. -/
  | opened {before : List Geometry} {g : Geometry} {after : List ConsoleStep}
      (hsizes : sizes = before ++ [c.geometry, g]) (hsession : c.session.toNat = before.length)
      (hafter : ∀ step ∈ after, step.resizes = false) :
      SourceStage sizes c (.write (.width g.width) :: .write (.height g.height) :: .write .beginSession :: after)
  /-- Its width is stored. -/
  | width {before : List Geometry} {w h : UInt32} {after : List ConsoleStep}
      (hsizes : sizes = before ++ [⟨w, c.height⟩, ⟨c.width, h⟩]) (hsession : c.session.toNat = before.length)
      (hafter : ∀ step ∈ after, step.resizes = false) :
      SourceStage sizes c (.write (.height h) :: .write .beginSession :: after)
  /-- Its size is stored. -/
  | size {before : List Geometry} {g : Geometry} {after : List ConsoleStep}
      (hsizes : sizes = before ++ [g, c.geometry]) (hsession : c.session.toNat = before.length)
      (hafter : ∀ step ∈ after, step.resizes = false) : SourceStage sizes c (.write .beginSession :: after)

section

variable {sizes : List Geometry} {c c' : Control} {steps : List ConsoleStep}

theorem SourceStage.congr (h : SourceStage sizes c steps) (hsession : c'.session = c.session)
    (hsize : c'.geometry = c.geometry) : SourceStage sizes c' steps := by
  obtain ⟨hw, hh⟩ := Geometry.mk.inj hsize
  cases h with
  | settled hsizes hs hsteps => exact .settled (hsize ▸ hsizes) ((congrArg UInt64.toNat hsession).trans hs) hsteps
  | opened hsizes hs hafter => exact .opened (hsize ▸ hsizes) ((congrArg UInt64.toNat hsession).trans hs) hafter
  | width hsizes hs hafter => exact .width (hw ▸ hh ▸ hsizes) ((congrArg UInt64.toNat hsession).trans hs) hafter
  | size hsizes hs hafter => exact .size (hsize ▸ hsizes) ((congrArg UInt64.toNat hsession).trans hs) hafter

/-- A size that is read now fits the current session. -/
theorem SourceStage.reads (h : SourceStage sizes c steps) :
    Fits sizes (ConsoleStep.storing steps) c.session c.geometry := by
  cases h with
  | settled hsizes hs | opened hsizes hs =>
    exact ⟨⟨0, Nat.zero_le _, by simp [hsizes, hs]⟩, ⟨0, Nat.zero_le _, by simp [hsizes, hs]⟩⟩
  | width hsizes hs =>
    exact ⟨⟨1, Nat.le_refl _, by simp [hsizes, hs, Control.geometry]⟩,
      ⟨0, Nat.zero_le _, by simp [hsizes, hs, Control.geometry]⟩⟩
  | size hsizes hs => exact ⟨⟨1, Nat.le_refl _, by simp [hsizes, hs]⟩, ⟨1, Nat.le_refl _, by simp [hsizes, hs]⟩⟩

theorem SourceStage.settled_of_nil (h : SourceStage sizes c []) :
    ∃ before, sizes = before ++ [c.geometry] ∧ c.session.toNat = before.length := by
  cases h with
  | settled hsizes hs => exact ⟨_, hsizes, hs⟩

/-- A write of the console. Only one that begins a session changes it, and that to a later one. -/
theorem SourceStage.write {w : Control.Write} {rest : List ConsoleStep} (h : SourceStage sizes c (.write w :: rest))
    (hbound : sizes.length ≤ 2 ^ 64) : SourceStage sizes (c.write w) rest ∧ c.session ≤ (c.write w).session := by
  cases h with
  | settled hsizes hs hsteps =>
    have hrest : ∀ step ∈ rest, step.resizes = false := fun step hstep => hsteps step (List.mem_cons_of_mem _ hstep)
    have hw : (ConsoleStep.write w).resizes = false := hsteps _ List.mem_cons_self
    cases w with
    | width | height | beginSession => cases hw
    | _ => exact ⟨.settled hsizes hs hrest, UInt64.le_refl _⟩
  | opened hsizes hs hafter => exact ⟨.width hsizes hs hafter, UInt64.le_refl _⟩
  | width hsizes hs hafter => exact ⟨.size hsizes hs hafter, UInt64.le_refl _⟩
  | @size before g _ hsizes hs hafter =>
    have hlength : before.length + 2 ≤ 2 ^ 64 := by simpa [hsizes] using hbound
    have hnext : (c.session + 1).toNat = before.length + 1 := by
      rw [UInt64.toNat_add, hs]
      exact Nat.mod_eq_of_lt (show before.length + 1 < 2 ^ 64 by omega)
    have hsettled : sizes = (before ++ [g]) ++ [c.geometry] := by
      rw [hsizes, List.append_assoc]
      rfl
    refine ⟨.settled hsettled ?_ hafter, ?_⟩
    · rw [List.length_append]
      exact hnext
    · rw [UInt64.le_iff_toNat_le]
      show c.session.toNat ≤ (c.session + 1).toNat
      omega

/-- A step of the console that writes nothing. -/
theorem SourceStage.tail {step : ConsoleStep} {rest : List ConsoleStep} (h : SourceStage sizes c (step :: rest))
    (hstep : ∀ w, step ≠ .write w) : SourceStage sizes c rest := by
  cases h with
  | settled hsizes hs hsteps => exact .settled hsizes hs fun s hs => hsteps s (List.mem_cons_of_mem _ hs)
  | _ => exact absurd rfl (hstep _)

end

/-! ## Moves -/

/-- A window that was closed, with the events that went into it. -/
structure Exposure where
  window : Window
  origins : List Origin
  /-- Whether its size was read in a race. -/
  raced : Bool

/-- The parties, the sizes of the sources, and which sizes were read while the console was storing another. -/
structure Sizing where
  parties : Parties
  /-- No size at first, then that of every source opened. The size of a session's source stands at its number. -/
  sizes : List Geometry
  /-- Whether the width that was read last was read so. -/
  widthRaced : Bool
  /-- Whether one of the sides was, that the engine took over last. -/
  raced : Bool
  /-- The windows closed so far. -/
  closed : List Exposure

namespace Sizing

/-- No source has been opened, and nothing published. The rest of the shared state is as it may be. -/
def start (length : WindowLength) (capacity : Nat) (s : Shared) : Sizing where
  parties := .start length capacity { s with latest := none }
  sizes := [⟨0, 0⟩]
  widthRaced := false
  raced := false
  closed := []

/-- The size of the source that the move opens, if it opens one. -/
def opens? (x : Sizing) : Move → Option Geometry
  | .switchOn g _ => if x.parties.console = [] ∧ !x.parties.shared.control.acquisition then some g else none
  | _ => none

/-- The engine has taken a step. -/
def advance (x : Sizing) (worker : Worker) : Sizing :=
  let race := ConsoleStep.storing x.parties.console
  match x.parties.worker.phase with
  | .readWidth _ => { x with parties.worker := worker, widthRaced := race }
  | .readHeight .. => { x with parties.worker := worker, raced := x.widthRaced || race }
  | .feed _ (_ :: _) =>
    { x with
      parties.worker := worker
      closed := x.closed ++ (worker.trace.closed.drop x.parties.worker.trace.closed.length).map
        fun p => ⟨p.1, p.2, x.raced⟩ }
  | _ => { x with parties.worker := worker }

def act (x : Sizing) (m : Move) : Sizing :=
  match m with
  | .engine =>
    match x.parties.worker.step? with
    | none => x
    | some worker => x.advance worker
  | m => { x with parties := x.parties.act m, sizes := x.sizes ++ (x.opens? m).toList }

def run (x : Sizing) (moves : List Move) : Sizing := moves.foldl act x

theorem parties_advance (x : Sizing) (worker : Worker) :
    (x.advance worker).parties = { x.parties with worker } := by
  unfold advance
  dsimp only
  split <;> rfl

theorem act_of_ne (x : Sizing) {m : Move} (hm : m ≠ .engine) :
    x.act m = { x with parties := x.parties.act m, sizes := x.sizes ++ (x.opens? m).toList } := by
  cases m <;> first | rfl | exact absurd rfl hm

/-- The record has no part in what the parties do. -/
theorem parties_act (x : Sizing) (m : Move) : (x.act m).parties = x.parties.act m := by
  cases m with
  | engine =>
    rw [act, Parties.act]
    cases x.parties.worker.step? with
    | none => rfl
    | some worker => exact x.parties_advance worker
  | _ => rfl

theorem prefix_act (x : Sizing) (m : Move) : x.sizes <+: (x.act m).sizes := by
  by_cases hm : m = .engine
  · subst hm
    unfold act advance
    dsimp only
    split
    · exact List.prefix_rfl
    · split <;> exact List.prefix_rfl
  · rw [act_of_ne x hm]
    exact List.prefix_append ..

theorem prefix_run (x : Sizing) (moves : List Move) : x.sizes <+: (x.run moves).sizes := by
  induction moves generalizing x with
  | nil => exact List.prefix_rfl
  | cons m rest ih => exact (x.prefix_act m).trans (ih (x.act m))

/-! ## Moves of the console and the camera -/

variable {x : Sizing}

/-- How far the console is. -/
def AtStage (x : Sizing) : Prop := SourceStage x.sizes x.parties.shared.control x.parties.console

/-- An idle console begins a command that opens nothing. -/
theorem AtStage.begin (h : x.AtStage) {command : List ConsoleStep} {possible : Bool}
    (hcommand : ∀ step ∈ command, step.resizes = false) :
    SourceStage x.sizes (x.parties.begin command possible).shared.control (x.parties.begin command possible).console ∧
      x.parties.shared.control.session ≤ (x.parties.begin command possible).shared.control.session := by
  unfold Parties.begin
  split
  · next hidle =>
    unfold AtStage at h
    rw [hidle.1] at h
    obtain ⟨before, hsizes, hs⟩ := h.settled_of_nil
    exact ⟨.settled hsizes hs hcommand, UInt64.le_refl _⟩
  · exact ⟨h, UInt64.le_refl _⟩

theorem AtStage.act_of_ne (h : x.AtStage) {m : Move} (hm : m ≠ .engine) (hbound : x.sizes.length ≤ 2 ^ 64) :
    (x.act m).AtStage ∧ x.parties.shared.control.session ≤ (x.act m).parties.shared.control.session := by
  rw [x.act_of_ne hm]
  cases m with
  | switchOn g starts =>
    by_cases hidle : x.parties.console = [] ∧ !x.parties.shared.control.acquisition
    · unfold AtStage at h
      rw [hidle.1] at h
      obtain ⟨before, hsizes, hs⟩ := h.settled_of_nil
      have hopened : x.sizes ++ [g] = before ++ [x.parties.shared.control.geometry, g] := by
        rw [hsizes, List.append_assoc]
        rfl
      simp only [AtStage, opens?, Parties.act, Parties.begin, if_pos hidle]
      refine ⟨.opened hopened hs ?_, UInt64.le_refl _⟩
      cases starts <;> decide
    · simp only [AtStage, opens?, Parties.act, Parties.begin, if_neg hidle, Option.toList_none, List.append_nil]
      exact ⟨h, UInt64.le_refl _⟩
  | switchOff => simpa [AtStage, opens?, Parties.act] using h.begin (by decide)
  | shutDown => simpa [AtStage, opens?, Parties.act] using h.begin (by decide)
  | console =>
    simp only [AtStage, opens?, Option.toList_none, List.append_nil, Parties.act]
    split
    · exact ⟨h, UInt64.le_refl _⟩
    · next step rest hc =>
      unfold AtStage at h
      rw [hc] at h
      cases step with
      | write w => exact h.write hbound
      | clear => exact ⟨h.tail (by simp), UInt64.le_refl _⟩
      | join =>
        simp only [Parties.perform]
        split
        · exact ⟨hc ▸ h, UInt64.le_refl _⟩
        · exact ⟨h.tail (by simp), UInt64.le_refl _⟩
      | start => exact ⟨h.tail (by simp), UInt64.le_refl _⟩
  | set w =>
    simp only [AtStage, opens?, Option.toList_none, List.append_nil, Parties.act]
    split
    · cases w <;> first | exact ⟨h.congr rfl rfl, UInt64.le_refl _⟩ | contradiction
    · exact ⟨h, UInt64.le_refl _⟩
  | deliver events =>
    simp only [AtStage, opens?, Option.toList_none, List.append_nil, Parties.act]
    split <;> exact ⟨h, UInt64.le_refl _⟩
  | push =>
    simp only [AtStage, opens?, Option.toList_none, List.append_nil, Parties.act]
    split
    · next session events hc =>
      rcases x.parties.shared.push?_cases ⟨session, events⟩ with ⟨-, -, hp⟩ | ⟨-, -, hp⟩ | ⟨-, hp⟩ <;> rw [hp] <;>
        exact ⟨h, UInt64.le_refl _⟩
    · exact ⟨h, UInt64.le_refl _⟩
  | engine => exact absurd rfl hm

/-! ## The invariant -/

/-- The fact is known of the session, unless that is over. -/
def Due (s : Parties) (session : SessionId) (fact : Prop) : Prop :=
  session ≤ s.shared.control.session ∧ (session = s.shared.control.session → fact)

theorem Due.imp {s s' : Parties} {session : SessionId} {fact fact' : Prop} (h : Due s session fact)
    (hsession : s.shared.control.session ≤ s'.shared.control.session) (hfact : fact → fact') :
    Due s' session fact' := by
  refine ⟨UInt64.le_trans h.1 hsession, ?_⟩
  rintro rfl
  exact hfact (h.2 (UInt64.le_antisymm h.1 hsession))

/-- What the engine has measured fits the session: the width while it reads a size, else the size that it has. -/
def Measured (x : Sizing) (session : SessionId) : Phase → Prop
  | .readWidth _ => True
  | .readHeight _ width => FitsSide x.sizes x.widthRaced session Geometry.width width
  | _ => Fits x.sizes x.raced session x.parties.worker.pipeline.engine.manager.geometry

/-- The engine is about to take a reset that is pending. -/
def AboutToReset (x : Sizing) : Phase → Prop
  | .takeReset _ => x.parties.shared.control.resetRequested = true
  | _ => False

/-- What every move keeps. -/
structure Coherent (x : Sizing) : Prop where
  isolated : x.parties.Isolated
  stage : x.AtStage
  manager : ∀ w, x.parties.worker.pipeline.engine.manager.current = some w →
    w.canvas.geometry = x.parties.worker.pipeline.engine.manager.geometry
  current : ∀ o ∈ x.parties.worker.trace.current,
    Fits x.sizes x.raced o.session x.parties.worker.pipeline.engine.manager.geometry
  closed : x.closed.map (fun e => (e.window, e.origins)) = x.parties.worker.trace.closed
  exposed : ∀ e ∈ x.closed, ∀ o ∈ e.origins, Fits x.sizes e.raced o.session e.window.canvas.geometry
  latest : x.parties.shared.latest = x.closed.getLast?.map (·.window.publication)
  /-- A size that does not fit the current session will be read again before a batch is taken. -/
  pending : x.parties.shared.control.running = true →
    ∃ session, x.parties.Fresh session ∧ Due x.parties session (x.Measured session x.parties.worker.phase)
  /-- The size fits the session of the batch in hand, if that has not ended and no reset is to be taken first. -/
  inHand : ∀ b, x.parties.worker.phase.batch? = some b →
    Due x.parties b.session (x.AboutToReset x.parties.worker.phase ∨ x.Measured b.session x.parties.worker.phase)
  feeding : ∀ session rest, x.parties.worker.phase = .feed session rest →
    Fits x.sizes x.raced session x.parties.worker.pipeline.engine.manager.geometry

theorem coherent_start (length : WindowLength) (capacity : Nat) (s : Shared) :
    (start length capacity s).Coherent where
  isolated := Parties.isolated_start length capacity _
  stage := .settled (List.nil_append _).symm rfl nofun
  manager := nofun
  current := nofun
  closed := rfl
  exposed := nofun
  latest := rfl
  pending _ := ⟨0, .inl rfl, UInt64.le_refl _, fun _ => ⟨⟨0, Nat.le_refl _, rfl⟩, ⟨0, Nat.le_refl _, rfl⟩⟩⟩
  inHand := nofun
  feeding := nofun

theorem Measured.extend {session : SessionId} {phase : Phase} {parties : Parties} {sizes : List Geometry}
    (h : x.Measured session phase) (hengine : parties.worker.pipeline.engine = x.parties.worker.pipeline.engine)
    (hsizes : x.sizes <+: sizes) : Measured { x with parties, sizes } session phase := by
  cases phase with
  | readWidth inHand => trivial
  | readHeight inHand width => exact FitsSide.mono h hsizes id
  | _ =>
    simp only [Measured, hengine]
    exact Fits.mono h hsizes

/-- Only the engine reads sizes and closes windows. -/
theorem Coherent.act_of_ne (h : x.Coherent) {m : Move} (hm : m ≠ .engine) (hbound : x.sizes.length ≤ 2 ^ 64) :
    (x.act m).Coherent := by
  obtain ⟨hstage, hsession⟩ := h.stage.act_of_ne hm hbound
  have hspares : Parties.Spares x.parties (x.parties.act m) := Parties.spares_act x.parties hm
  obtain ⟨hphase, htrace, hengine, hlatest⟩ := x.parties.worker_act hm
  have hsizes := x.prefix_act m
  rw [x.act_of_ne hm] at hstage hsession hsizes ⊢
  have hmeasured : ∀ {session}, x.Measured session x.parties.worker.phase →
      Measured { x with parties := x.parties.act m, sizes := x.sizes ++ (x.opens? m).toList } session
        x.parties.worker.phase := fun hmeasured => hmeasured.extend hengine hsizes
  refine
    { isolated := h.isolated.spares hspares, stage := hstage, manager := ?_, current := ?_, closed := ?_
      exposed := ?_, latest := ?_, pending := ?_, inHand := ?_, feeding := ?_ }
  · rw [hengine]
    exact h.manager
  · rw [hengine, htrace]
    exact fun o ho => (h.current o ho).mono hsizes
  · rw [htrace]
    exact h.closed
  · exact fun e he o ho => (h.exposed e he o ho).mono hsizes
  · exact hlatest.trans h.latest
  · intro hr
    have hr' := hspares.running hr
    obtain ⟨session, hfresh, hdue⟩ := h.pending hr'
    rw [hphase]
    exact ⟨session, hspares.fresh hr (h.isolated.orderly hr') session hfresh, hdue.imp hsession hmeasured⟩
  · rw [hphase]
    intro b hb
    refine (h.inHand b hb).imp hsession (Or.imp ?_ hmeasured)
    intro hreset
    cases hp : x.parties.worker.phase with
    | takeReset inHand =>
      rw [hp] at hreset
      exact hspares.reset hreset
    | _ =>
      rw [hp] at hreset
      exact hreset.elim
  · rw [hphase, hengine]
    exact fun session rest hp => (h.feeding session rest hp).mono hsizes

/-! ## Steps of the engine -/

variable {worker : Worker}

/-- The engine leaves alone what the console stores. -/
theorem AtStage.step (h : x.AtStage) (hw : x.parties.worker.step? = some worker) :
    SourceStage x.sizes worker.pipeline.shared.control x.parties.console := by
  obtain ⟨⟨reset, recordingReset, hcontrol⟩, -⟩ := Worker.frame_step? hw
  rw [hcontrol]
  exact h.congr rfl rfl

/-- A step that keeps the windows and the size. -/
theorem Coherent.step_of_trace (h : x.Coherent) (hw : x.parties.worker.step? = some worker) (widthRaced : Bool)
    (htrace : worker.trace = x.parties.worker.trace)
    (hmanager : worker.pipeline.engine.manager = x.parties.worker.pipeline.engine.manager)
    (hlatest : worker.pipeline.shared.latest = x.parties.shared.latest)
    (hpending : worker.pipeline.shared.control.running = true →
      ∃ session, Parties.Fresh { x.parties with worker } session ∧
        Due x.parties session (Measured { x with parties.worker := worker, widthRaced } session worker.phase))
    (hinHand : ∀ b, worker.phase.batch? = some b → Due x.parties b.session
      (AboutToReset { x with parties.worker := worker, widthRaced } worker.phase ∨
        Measured { x with parties.worker := worker, widthRaced } b.session worker.phase))
    (hfeeding : ∀ session rest, worker.phase = .feed session rest →
      Fits x.sizes x.raced session x.parties.worker.pipeline.engine.manager.geometry) :
    Coherent { x with parties.worker := worker, widthRaced } := by
  have hsession : x.parties.shared.control.session ≤ worker.pipeline.shared.control.session :=
    UInt64.le_of_eq (Worker.session_step? hw).symm
  refine
    { isolated := h.isolated.step hw, stage := h.stage.step hw, manager := ?_, current := ?_, closed := ?_
      exposed := h.exposed, latest := hlatest.trans h.latest, pending := ?_, inHand := ?_, feeding := ?_ }
  · rw [hmanager]
    exact h.manager
  · rw [hmanager, htrace]
    exact h.current
  · rw [htrace]
    exact h.closed
  · intro hr
    obtain ⟨session, hfresh, hdue⟩ := hpending hr
    exact ⟨session, hfresh, hdue.imp hsession id⟩
  · exact fun b hb => (hinHand b hb).imp hsession id
  · rw [hmanager]
    exact hfeeding

/-- A step that drops no request. -/
theorem Coherent.pending_step (h : x.Coherent) (hw : x.parties.worker.step? = some worker)
    (hreset : x.parties.shared.control.resetRequested = true → worker.pipeline.shared.control.resetRequested = true)
    {fact : SessionId → Prop} (hfact : ∀ {session}, x.Measured session x.parties.worker.phase → fact session)
    (hr : worker.pipeline.shared.control.running = true) :
    ∃ session, Parties.Fresh { x.parties with worker } session ∧ Due x.parties session (fact session) := by
  obtain ⟨session, hfresh, hdue⟩ := h.pending ((Worker.running_step? hw).symm.trans hr)
  exact ⟨session, hfresh.step hw hreset, hdue.imp (UInt64.le_refl _) hfact⟩

/-- A batch that is taken is of the current session. The size fits it, or is about to be read again. -/
theorem Coherent.take {b : Batch} {rest : List Batch} (h : x.Coherent)
    (hr : x.parties.shared.control.running = true) (hb : x.parties.shared.queue.batches = b :: rest)
    (hphase : x.parties.worker.phase = .pop) :
    Due x.parties b.session (x.parties.shared.control.resetRequested = true ∨
      Fits x.sizes x.raced b.session x.parties.worker.pipeline.engine.manager.geometry) := by
  have hsession : b.session = x.parties.shared.control.session := (h.isolated.orderly hr).queued b (by simp [hb])
  refine ⟨UInt64.le_of_eq hsession, fun _ => ?_⟩
  obtain ⟨session, hs | hreset | ⟨hquiet, -⟩, hdue⟩ := h.pending hr
  · rw [hphase] at hdue
    rw [hsession, ← hs]
    exact .inr (hdue.2 hs)
  · exact .inl hreset
  · rw [hquiet.2] at hb
    cases hb

/-- The engine takes over a size that it has read, and drops the current window. -/
theorem Coherent.measure {inHand : Option Batch} {width : UInt32} (h : x.Coherent)
    (hphase : x.parties.worker.phase = .readHeight inHand width)
    (hw : x.parties.worker.step? = some worker) : (x.advance worker).Coherent := by
  have hpending := h.pending
  have hinHand := h.inHand
  have hread := h.stage.reads
  have hisolated := h.isolated.step hw
  have hstage := h.stage.step hw
  obtain ⟨⟨⟨p, phase, trace⟩, console, camera⟩, sizes, widthRaced, raced, closed⟩ := x
  obtain rfl : phase = .readHeight inHand width := hphase
  cases hw
  -- If the session has not changed since the width was read, both sides fit it.
  have hfits : ∀ {session}, session = p.shared.control.session →
      FitsSide sizes widthRaced session Geometry.width width →
      Fits sizes (widthRaced || ConsoleStep.storing console) session ⟨width, p.shared.control.height⟩ := by
    rintro _ rfl hwidth
    exact ⟨hwidth.mono List.prefix_rfl (by simp +contextual), hread.height.mono List.prefix_rfl (by simp +contextual)⟩
  refine
    { isolated := hisolated, stage := hstage, manager := nofun, current := nofun, closed := h.closed
      exposed := h.exposed, latest := h.latest, pending := ?_, inHand := ?_, feeding := nofun }
  · intro hr
    obtain ⟨session, hfresh, hle, hwidth⟩ := hpending hr
    exact ⟨session, hfresh, hle, fun hs => hfits hs (hwidth hs)⟩
  · intro b hb
    obtain ⟨hle, hwidth⟩ := hinHand b hb
    exact ⟨hle, fun hs => .inr (hfits hs ((hwidth hs).resolve_left id))⟩

/-- An event is fed. It may close windows. -/
theorem Coherent.feed {session : SessionId} {e : Event} {rest : List Event} (h : x.Coherent)
    (hphase : x.parties.worker.phase = .feed session (e :: rest))
    (hw : x.parties.worker.step? = some worker) : (x.advance worker).Coherent := by
  have hisolated := h.isolated.step hw
  have hstage := h.stage.step hw
  have hpending := h.pending_step hw
  have hfeeding := h.feeding _ _ hphase
  obtain ⟨⟨⟨p, phase, trace⟩, console, camera⟩, sizes, widthRaced, raced, closed⟩ := x
  obtain rfl : phase = .feed session (e :: rest) := hphase
  cases hw
  obtain ⟨hgeometry, hcurrent, hclosed⟩ := WindowManager.geometry_process h.manager h.isolated.exact.stop e
    p.shared.control.recording
  obtain ⟨new, hnew, hwindows, horigins⟩ := Trace.closed_feed (p.engine.manager.process e p.shared.control.recording)
    ⟨session, e⟩ trace
  have hsize : (p.feed e).engine.manager.geometry = p.engine.manager.geometry := by
    rw [Pipeline.manager_feed, hgeometry]
  have hcontrol := Pipeline.control_feed p e
  simp only [advance, hnew, List.drop_left]
  refine
    { isolated := hisolated, stage := hstage, manager := ?_, current := ?_, closed := ?_
      exposed := ?_, latest := ?_, pending := ?_, inHand := nofun, feeding := ?_ }
  · rw [hsize, Pipeline.manager_feed]
    exact hcurrent
  · rw [hsize]
    intro o ho
    rcases Trace.mem_current_feed ho with ho | rfl
    · exact h.current o ho
    · exact hfeeding
  · rw [hnew, List.map_append, h.closed, List.map_map]
    simp [Function.comp_def]
  · intro exposure hexposure
    rcases List.mem_append.1 hexposure with hold | hnew
    · exact h.exposed exposure hold
    · obtain ⟨⟨v, origins⟩, hv, rfl⟩ := List.mem_map.1 hnew
      intro o ho
      have hvsize : v.canvas.geometry = p.engine.manager.geometry :=
        hclosed v (hwindows ▸ List.mem_map.2 ⟨_, hv, rfl⟩)
      -- Only the first of the windows has events, those of the one that was current.
      rcases horigins _ hv with ho' | ho'
      · exact hvsize ▸ h.current o (ho' ▸ ho)
      · exact absurd (ho' ▸ ho) List.not_mem_nil
  · have hlatest := Pipeline.latest_feed p e
    rw [← hwindows, show p.shared.latest = _ from h.latest] at hlatest
    rw [List.getLast?_append, Option.map_or, List.getLast?_map, Option.map_map]
    rw [List.getLast?_map, Option.map_map] at hlatest
    exact hlatest
  · intro hr
    obtain ⟨session, hfresh, hdue⟩ := hpending (fun hr => hcontrol.symm ▸ hr) id hr
    refine ⟨session, hfresh, hdue.imp ?_ ?_⟩
    · exact UInt64.le_of_eq (congrArg Control.session hcontrol.symm)
    · simp only [Measured, hsize]
      exact id
  · rintro _ _ ⟨⟩
    rw [hsize]
    exact hfeeding

theorem Coherent.step (h : x.Coherent) (hw : x.parties.worker.step? = some worker) : (x.advance worker).Coherent := by
  have hinHand := h.inHand
  have hfeeding := h.feeding
  have hread := h.stage.reads
  obtain ⟨⟨⟨p, phase, trace⟩, console, camera⟩, sizes, widthRaced, raced, closed⟩ := x
  cases phase with
  | head =>
    have hw' := hw
    cases hr : p.shared.control.running <;> simp only [Worker.step?, hr] at hw' <;> cases hw'
    · exact h.step_of_trace hw _ rfl rfl rfl (h.pending_step hw id id) (by rintro _ ⟨⟩) (by rintro _ _ ⟨⟩)
    · exact h.step_of_trace hw _ rfl rfl rfl (h.pending_step hw id id) (by rintro _ ⟨⟩) (by rintro _ _ ⟨⟩)
  | takeReset inHand =>
    have hw' := hw
    cases hr : p.shared.control.resetRequested <;> simp only [Worker.step?, Control.takeReset, hr] at hw' <;> cases hw'
    · refine h.step_of_trace hw _ rfl rfl rfl (h.pending_step hw (fun hr' => ?_) id) (fun b hb => ?_) (by rintro _ _ ⟨⟩)
      · exact absurd hr' (by simp [Parties.shared, hr])
      · refine (hinHand b hb).imp (UInt64.le_refl _) ?_
        rintro (hreset | hfits)
        · exact absurd hreset (by simp [AboutToReset, Parties.shared, hr])
        · exact .inr hfits
    · exact h.step_of_trace hw _ rfl rfl rfl (fun _ => ⟨_, .inl rfl, UInt64.le_refl _, fun _ => trivial⟩)
        (fun b hb => (hinHand b hb).imp (UInt64.le_refl _) fun _ => .inr trivial) (by rintro _ _ ⟨⟩)
  | readWidth inHand =>
    cases hw
    exact h.step_of_trace rfl _ rfl rfl rfl (fun _ => ⟨_, .inl rfl, UInt64.le_refl _, fun _ => hread.width⟩)
      (fun b hb => ⟨(hinHand b hb).1, fun hs => .inr (hs ▸ hread.width)⟩) (by rintro _ _ ⟨⟩)
  | readHeight inHand width => exact h.measure rfl hw
  | takeRecordingReset inHand =>
    have hw' := hw
    cases inHand <;> simp only [Worker.step?, Pipeline.applyRecordingReset_eq] at hw' <;> cases hw'
    · exact h.step_of_trace hw _ rfl rfl rfl (h.pending_step hw id id) (by rintro _ ⟨⟩) (by rintro _ _ ⟨⟩)
    · exact h.step_of_trace hw _ rfl rfl rfl (h.pending_step hw id id)
        (fun b hb => (hinHand b hb).imp (UInt64.le_refl _) (Or.imp False.elim id)) (by rintro _ _ ⟨⟩)
  | pop =>
    rcases p.shared.pop?_cases with ⟨-, -, hp⟩ | ⟨b, rest, hr, hb, hp⟩ | ⟨-, hp⟩ <;>
      have hw' := hw <;> simp only [Worker.step?, hp] at hw' <;> cases hw'
    · refine h.step_of_trace hw _ rfl rfl rfl (h.pending_step hw id id) ?_ (by rintro _ _ ⟨⟩)
      rintro b' ⟨⟩
      exact h.take hr hb rfl
    · exact h.step_of_trace hw _ rfl rfl rfl (h.pending_step hw id id) (by rintro _ ⟨⟩) (by rintro _ _ ⟨⟩)
  | check b =>
    have hw' := hw
    by_cases hs : b.session = p.shared.control.session <;> simp only [Worker.step?, hs, if_true, if_false] at hw' <;>
      cases hw'
    · refine h.step_of_trace hw _ rfl rfl rfl (h.pending_step hw id id) (by rintro _ ⟨⟩) ?_
      rintro session rest ⟨⟩
      exact hs ▸ ((hinHand b rfl).2 hs).resolve_left id
    · exact h.step_of_trace hw _ rfl rfl rfl (h.pending_step hw id id) (by rintro _ ⟨⟩) (by rintro _ _ ⟨⟩)
  | feed session rest =>
    cases rest with
    | nil =>
      cases hw
      exact h.step_of_trace rfl _ rfl rfl rfl (h.pending_step rfl id id) (by rintro _ ⟨⟩) (by rintro _ _ ⟨⟩)
    | cons e rest => exact h.feed rfl hw
  | stopped => cases hw

/-! ## Every run -/

theorem Coherent.act (h : x.Coherent) (m : Move) (hbound : x.sizes.length ≤ 2 ^ 64) : (x.act m).Coherent := by
  by_cases hm : m = .engine
  · subst hm
    unfold Sizing.act
    dsimp only
    split
    · exact h
    · next hw => exact h.step hw
  · exact h.act_of_ne hm hbound

theorem Coherent.run (h : x.Coherent) (moves : List Move) (hbound : (x.run moves).sizes.length ≤ 2 ^ 64) :
    (x.run moves).Coherent := by
  induction moves generalizing x with
  | nil => exact h
  | cons m rest ih => exact ih (h.act m ((x.prefix_run (m :: rest)).length_le.trans hbound)) hbound

theorem parties_run (x : Sizing) (moves : List Move) : (x.run moves).parties = x.parties.run moves := by
  induction moves generalizing x with
  | nil => rfl
  | cons m rest ih => exact (ih (x.act m)).trans (congrArg (Parties.run · rest) (x.parties_act m))

/-- In whatever order the parties move, with fewer than 2^64 sources: a window with an event of a session has the size
of the source of that session, unless one of its sides was read while the console was storing the next size. Then each
side is that of the one source or the next. -/
theorem sized_by_source (length : WindowLength) (capacity : Nat) (s : Shared) (moves : List Move)
    (hbound : ((start length capacity s).run moves).sizes.length ≤ 2 ^ 64) :
    let x := (start length capacity s).run moves
    let manager := x.parties.worker.pipeline.engine.manager
    -- The record is of what the parties do, and the sources have their sessions in the order in which they were opened.
    x.parties = (Parties.start length capacity { s with latest := none }).run moves ∧
    SourceStage x.sizes x.parties.shared.control x.parties.console ∧
    x.closed.map (fun e => (e.window, e.origins)) = x.parties.worker.trace.closed ∧
    -- The windows that were closed, and the current one.
    (∀ e ∈ x.closed, ∀ o ∈ e.origins, Fits x.sizes e.raced o.session e.window.canvas.geometry ∧
      (e.raced = false → x.sizes[o.session.toNat]? = some e.window.canvas.geometry)) ∧
    (∀ w, manager.current = some w → ∀ o ∈ x.parties.worker.trace.current,
      Fits x.sizes x.raced o.session w.canvas.geometry ∧
      (x.raced = false → x.sizes[o.session.toNat]? = some w.canvas.geometry)) ∧
    -- The latest frame is the canvas of the last of the former.
    x.parties.shared.latest = x.closed.getLast?.map (·.window.publication) := by
  intro x manager
  have h : x.Coherent := (coherent_start length capacity s).run moves hbound
  have hexact : ∀ {raced session g}, Fits x.sizes raced session g →
      Fits x.sizes raced session g ∧ (raced = false → x.sizes[session.toNat]? = some g) :=
    fun hfits => ⟨hfits, fun hraced => (hraced ▸ hfits).eq_source⟩
  refine ⟨parties_run _ moves, h.stage, h.closed, fun e he o ho => hexact (h.exposed e he o ho), ?_, h.latest⟩
  intro w hw o ho
  rw [h.manager w hw]
  exact hexact (h.current o ho)

/-- A source is opened and sends an event and, at the end of its window, another. -/
theorem sized_by_source_one_source :
    let moves : List Move := List.flatten [[.switchOn ⟨2, 1⟩ true], .replicate 6 .console,
      [.deliver [⟨0, 0, .on, 0⟩, ⟨0, 0, .on, 2000⟩], .push], .replicate 12 .engine]
    let x := (start .standard 4 (.initial 4)).run moves
    x.sizes.length ≤ 2 ^ 64 ∧ x.closed.length = 1 ∧ ∀ e ∈ x.closed, ∀ o ∈ e.origins, e.raced = false →
      x.sizes[o.session.toNat]? = some e.window.canvas.geometry := by
  intro moves x
  have hbound : x.sizes.length ≤ 2 ^ 64 := by decide +kernel
  obtain ⟨-, -, -, hclosed, -⟩ := sized_by_source .standard 4 (.initial 4) moves hbound
  exact ⟨hbound, by decide +kernel, fun e he o ho => (hclosed e he o ho).2⟩

/-- The engine takes a batch of a source, the camera is switched off, and a source of another size is opened. Before its
session begins the engine takes the reset, and feeds the batch. The window is published in the size of the second
source. -/
theorem not_sized_by_source :
    let engine (steps : Nat) : List Move := List.replicate steps .engine
    let console (steps : Nat) : List Move := List.replicate steps .console
    let moves := List.flatten [[.switchOn ⟨2, 1⟩ true], console 6,
      [.deliver [⟨0, 0, .on, 0⟩, ⟨0, 0, .on, 2000⟩], .push], engine 6,
      [.switchOff], console 5, [.switchOn ⟨4, 2⟩ true], console 2, engine 7]
    let x := (start .standard 4 (.initial 4)).run moves
    x.sizes = [⟨0, 0⟩, ⟨2, 1⟩, ⟨4, 2⟩] ∧
      x.closed.map (fun e => (e.origins, e.window.canvas.geometry)) = [([⟨1, 0, 0, .on, 0⟩], ⟨4, 2⟩)] ∧
      x.parties.shared.latest.map (·.frame.geometry) = some ⟨4, 2⟩ := by
  decide +kernel

end Sizing

end EventCamera
