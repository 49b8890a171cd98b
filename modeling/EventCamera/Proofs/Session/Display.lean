import EventCamera.Console.Loop
import EventCamera.Proofs.Session.Parties
import EventCamera.Proofs.Window.Cadence
/-!
# What the display shows

The console, the camera and the engine move in any order, and between their moves the console refreshes its
display. A refresh hands the latest frame over unless it carries the stamp of the frame handed over last. A stamp is
the index and the start of a window, and a reset lets both begin anew.

`stale_only_after_reset`: after every refresh the display shows a frame with the stamp of the latest one, and it is the
latest one unless the engine took a reset between the two publications. The windows published between two
resets start later and later (`WindowManager.start_process`), so a stamp comes only once there.
`stale_after_reset`: across a reset a stamp can come again with another picture, which is then not shown.
-/

namespace EventCamera

/-! ## Later windows start later -/

namespace Window

variable {d : WindowLength} {recording : Bool} {t : Timestamp} {w : Window}

theorem start_lt_start_ahead_succ (hw : w.stop = w.start.plus d) {k : Nat} (hk : k < w.closings d t) :
    (w.ahead d recording k).start < (w.ahead d recording (k + 1)).start := by
  have hcloses : (w.ahead d recording k).Closes t := (closes_ahead_iff hw hk.le).2 hk
  have hplus : (w.ahead d recording k).stop = (w.ahead d recording k).start.plus d := stop_ahead hw k
  have hstop := toInt_stop_of_lt_last hplus hcloses.2
  have hd := d.one_le
  rw [ahead_succ, start_advance, Int64.lt_iff_toInt_lt, hstop]
  omega

theorem start_le_start_ahead (hw : w.stop = w.start.plus d) {k : Nat} (hk : k ≤ w.closings d t) :
    w.start ≤ (w.ahead d recording k).start := by
  induction k with
  | zero => exact Int64.le_refl _
  | succ k ih => exact Int64.le_of_lt (Int64.lt_of_le_of_lt (ih (by omega)) (start_lt_start_ahead_succ hw hk))

end Window

namespace WindowManager

variable {m : WindowManager}

/-- Without a current window nothing is closed. -/
theorem closed_process_of_idle (hc : m.current = none) (e : Event) (recording : Bool) :
    (m.process e recording).closed.toList = [] := by
  cases hg : m.geometry.isEmpty with
  | true => rw [process_of_isEmpty hg]
  | false => rw [process_of_idle hg hc]

/-- What is closed starts at the current window or later, and the last of it before the window that is current then. -/
theorem start_process {w : Window} (hc : m.current = some w) (hw : w.stop = w.start.plus m.length) (e : Event)
    (recording : Bool) :
    ∃ c, (m.process e recording).manager.current = some c ∧ w.start ≤ c.start ∧
      ∀ v, (m.process e recording).closed.toList.getLast? = some v → w.start ≤ v.start ∧ v.start < c.start := by
  cases hg : m.geometry.isEmpty with
  | true =>
    rw [process_of_isEmpty hg]
    exact ⟨w, hc, Int64.le_refl _, nofun⟩
  | false =>
    rw [process_of_current hg hc hw]
    dsimp only
    refine ⟨_, rfl, ?_, ?_⟩
    · rw [Window.start_add]
      exact Window.start_le_start_ahead hw (Nat.le_refl _)
    · intro v hv
      rw [Window.start_add]
      cases hn : w.closings m.length e.t with
      | zero =>
        rw [hn] at hv
        cases hv
      | succ n =>
        have hlt : n < w.closings m.length e.t := by omega
        obtain rfl : w.ahead m.length recording n = v := by
          simpa [hn, List.range_succ] using hv
        exact ⟨Window.start_le_start_ahead hw hlt.le, Window.start_lt_start_ahead_succ hw hlt⟩

end WindowManager

/-! ## Steps of the engine -/

namespace Worker

variable {w w' : Worker}

/-- What a step of the engine does to the latest frame and to the windows, in three cases. -/
theorem latest_step? (h : w.step? = some w') :
    -- It feeds an event.
    (∃ session e rest, w.phase = .feed session (e :: rest) ∧ w'.pipeline = w.pipeline.feed e ∧
      w'.trace = w.trace.feed (w.pipeline.engine.manager.process e w.pipeline.shared.control.recording) ⟨session, e⟩) ∨
    -- It drops the current window.
    (∃ inHand width, w.phase = .readHeight inHand width ∧ w'.trace.closed = w.trace.closed ∧
      w'.pipeline.shared.latest = w.pipeline.shared.latest) ∨
    -- It does neither.
    ((∀ inHand width, w.phase ≠ .readHeight inHand width) ∧ w'.trace = w.trace ∧
      w'.pipeline.shared.latest = w.pipeline.shared.latest ∧
      w'.pipeline.engine.manager = w.pipeline.engine.manager) := by
  cases did_of_step? h with
  | passed hpassing => exact .inr (.inr ⟨fun _ _ => Phase.ne_of_isPassing hpassing rfl, rfl, rfl, rfl⟩)
  | dropped hphase => exact .inr (.inl ⟨_, _, hphase, rfl, rfl⟩)
  | fed hphase => exact .inl ⟨_, _, _, hphase, rfl, rfl⟩
  | renumbered hphase =>
    rw [Pipeline.applyRecordingReset_eq]
    exact .inr (.inr ⟨by simp [hphase], rfl, rfl, rfl⟩)
  | took hphase | began hphase | turnedAway hphase => exact .inr (.inr ⟨by simp [hphase], rfl, rfl, rfl⟩)

end Worker

namespace Parties

/-- Only the engine publishes. -/
theorem worker_act (s : Parties) {m : Move} (hm : m ≠ .engine) :
    (s.act m).worker.phase = s.worker.phase ∧ (s.act m).worker.trace = s.worker.trace ∧
      (s.act m).worker.pipeline.engine = s.worker.pipeline.engine ∧ (s.act m).shared.latest = s.shared.latest := by
  have hsame : ∀ s' : Parties, s'.worker = s.worker →
      s'.worker.phase = s.worker.phase ∧ s'.worker.trace = s.worker.trace ∧
        s'.worker.pipeline.engine = s.worker.pipeline.engine ∧ s'.shared.latest = s.shared.latest := by
    intro s' h
    rw [shared, shared, h]
    exact ⟨rfl, rfl, rfl, rfl⟩
  have hbegin : ∀ command possible, (s.begin command possible).worker = s.worker := by
    intro command possible
    unfold begin
    split <;> rfl
  cases m with
  | switchOn g starts => exact hsame _ (hbegin _ _)
  | switchOff => exact hsame _ (hbegin _ _)
  | shutDown => exact hsame _ (hbegin _ _)
  | console =>
    unfold act
    dsimp only
    split
    · exact hsame s rfl
    · next step rest hc =>
      cases step with
      | write w => exact ⟨rfl, rfl, rfl, rfl⟩
      | clear => exact ⟨rfl, rfl, rfl, rfl⟩
      | join =>
        simp only [perform]
        split <;> exact ⟨rfl, rfl, rfl, rfl⟩
      | start => exact ⟨rfl, rfl, rfl, rfl⟩
  | set w =>
    unfold act
    dsimp only
    split <;> exact ⟨rfl, rfl, rfl, rfl⟩
  | deliver events =>
    unfold act
    dsimp only
    split <;> exact ⟨rfl, rfl, rfl, rfl⟩
  | push =>
    unfold act
    dsimp only
    split
    · next session events hc =>
      rcases s.shared.push?_cases ⟨session, events⟩ with ⟨-, -, hp⟩ | ⟨-, -, hp⟩ | ⟨-, hp⟩ <;> rw [hp] <;>
        exact ⟨rfl, rfl, rfl, rfl⟩
    · exact ⟨rfl, rfl, rfl, rfl⟩
  | engine => exact absurd rfl hm

/-- Whether the move lets the engine drop the current window, which restarts indices and clock. -/
def drops (s : Parties) (m : Move) : Bool :=
  match m, s.worker.phase with
  | .engine, .readHeight .. => true
  | _, _ => false

end Parties

/-! ## Watching -/

/-- A published frame, with how many resets the engine had taken when it was published. -/
structure Edition where
  published : Published
  resets : Nat
  deriving DecidableEq, Repr

/-- The parties at work and the console that refreshes its display, with a record of the editions. -/
structure Watch (δ : Type) where
  parties : Parties
  console : Console δ
  /-- How many resets the engine has taken. -/
  resets : Nat
  /-- The edition that is the latest frame. -/
  latest : Option Edition
  /-- The edition that was handed to the display last. -/
  shown : Option Edition

inductive WatchMove where
  | move (m : Move)
  | refresh
  deriving DecidableEq, Repr

namespace Watch

variable {δ : Type}

/-- Nothing has been published, and the display is new. The interpreter and the rest of the shared state are as they
may be. -/
def start (length : WindowLength) (capacity : Nat) (s : Shared) (i : Interpreter δ) : Watch δ where
  parties := .start length capacity { s with latest := none }
  console := .new ⟨s, i⟩
  resets := 0
  latest := none
  shown := none

/-- The console looks at the state that all parties share. -/
def refresh (w : Watch δ) : Watch δ :=
  match Console.refresh { w.console with desk.shared := w.parties.shared } with
  | (true, console) => { w with console, shown := w.latest }
  | (false, console) => { w with console }

/-- The edition that is the latest after a move: a new one if a window was closed. -/
def latestAfter (w : Watch δ) (parties : Parties) : Option Edition :=
  if w.parties.worker.trace.closed.length < parties.worker.trace.closed.length then
    parties.shared.latest.map (⟨·, w.resets⟩)
  else w.latest

def act (w : Watch δ) : WatchMove → Watch δ
  | .move m =>
    { w with
      parties := w.parties.act m
      resets := if w.parties.drops m then w.resets + 1 else w.resets
      latest := w.latestAfter (w.parties.act m) }
  | .refresh => w.refresh

def run (w : Watch δ) (moves : List WatchMove) : Watch δ := moves.foldl act w

end Watch

/-! ## Editions in order -/

/-- It is the other edition or came before it: before a reset, or in a window that starts earlier. -/
def Edition.UpTo (e e' : Edition) : Prop :=
  e = e' ∨ e.resets < e'.resets ∨ (e.resets = e'.resets ∧ e.published.stamp.start < e'.published.stamp.start)

theorem Edition.UpTo.trans {e e' e'' : Edition} (h : e.UpTo e') (h' : e'.UpTo e'') : e.UpTo e'' := by
  rcases h with rfl | h | ⟨h, ht⟩
  · exact h'
  · rcases h' with rfl | h' | ⟨h', -⟩
    · exact .inr (.inl h)
    · exact .inr (.inl (h.trans h'))
    · exact .inr (.inl (h' ▸ h))
  · rcases h' with rfl | h' | ⟨h', ht'⟩
    · exact .inr (.inr ⟨h, ht⟩)
    · exact .inr (.inl (h ▸ h'))
    · exact .inr (.inr ⟨h.trans h', Int64.lt_trans ht ht'⟩)

/-- With the same stamp it is the same edition, or there was a reset in between. -/
theorem Edition.UpTo.of_stamp_eq {e e' : Edition} (h : e.UpTo e') (hs : e.published.stamp = e'.published.stamp) :
    e = e' ∨ e.resets < e'.resets := by
  rcases h with h | h | ⟨-, ht⟩
  · exact .inl h
  · exact .inr h
  · rw [hs] at ht
    exact (Int64.lt_irrefl ht).elim

namespace Watch

variable {δ : Type} {w : Watch δ}

/-- What every move keeps. -/
structure Faithful (w : Watch δ) : Prop where
  exact : w.parties.worker.Exact
  latest : w.latest.map Edition.published = w.parties.shared.latest
  seen : w.console.seen = w.shown.map (·.published.stamp)
  displayed : w.console.display.last = w.console.seen
  resets : ∀ e, w.latest = some e → e.resets ≤ w.resets
  /-- What was published since the last reset starts before the current window. -/
  ahead : ∀ e, w.latest = some e → e.resets = w.resets →
    ∃ c, w.parties.worker.pipeline.engine.manager.current = some c ∧ e.published.stamp.start < c.start
  shown : ∀ e, w.shown = some e → ∃ e', w.latest = some e' ∧ e.UpTo e'

theorem faithful_start (length : WindowLength) (capacity : Nat) (s : Shared) (i : Interpreter δ) :
    (start length capacity s i).Faithful where
  exact := Worker.exact_start length _
  latest := rfl
  seen := rfl
  displayed := rfl
  resets := nofun
  ahead := nofun
  shown := nofun

/-- A refresh hands the latest edition over, or it carries the stamp of the one shown last. -/
theorem refresh_cases (w : Watch δ) :
    (∃ p, w.parties.shared.latest = some p ∧ w.refresh.shown = w.latest ∧
      w.refresh.console.seen = some p.stamp ∧ w.refresh.console.display.last = some p.stamp) ∨
    ((∀ p, w.parties.shared.latest = some p → w.console.seen = some p.stamp) ∧
      w.refresh.shown = w.shown ∧ w.refresh.console.seen = w.console.seen ∧
      w.refresh.console.display = w.console.display) := by
  cases hl : w.parties.shared.latest with
  | none => exact .inr ⟨nofun, by simp [refresh, Console.refresh, LatestFrame.newerThan, hl]⟩
  | some p =>
    by_cases hs : w.console.seen = some p.stamp
    · refine .inr ⟨?_, by simp [refresh, Console.refresh, LatestFrame.newerThan, hl, hs, Option.filter]⟩
      rintro _ ⟨⟩
      exact hs
    · refine .inl ⟨p, rfl, ?_⟩
      simp [refresh, Console.refresh, LatestFrame.newerThan, hl, hs, Option.filter, Display.present]

@[simp] theorem parties_refresh (w : Watch δ) : w.refresh.parties = w.parties := by
  unfold refresh
  split <;> rfl

@[simp] theorem resets_refresh (w : Watch δ) : w.refresh.resets = w.resets := by
  unfold refresh
  split <;> rfl

@[simp] theorem latest_refresh (w : Watch δ) : w.refresh.latest = w.latest := by
  unfold refresh
  split <;> rfl

theorem Faithful.refresh (h : w.Faithful) : w.refresh.Faithful := by
  have hkeep : w.refresh.console.seen = w.refresh.shown.map (·.published.stamp) →
      w.refresh.console.display.last = w.refresh.console.seen →
      (∀ e, w.refresh.shown = some e → ∃ e', w.latest = some e' ∧ e.UpTo e') → w.refresh.Faithful := by
    intro hseen hdisplayed hshown
    refine ⟨?_, ?_, hseen, hdisplayed, ?_, ?_, ?_⟩
    · simpa using h.exact
    · simpa using h.latest
    · simpa using h.resets
    · simpa using h.ahead
    · simpa using hshown
  rcases w.refresh_cases with ⟨p, hp, hshown, hseen, hdisplayed⟩ | ⟨-, hshown, hseen, hdisplayed⟩
  · refine hkeep ?_ (hdisplayed.trans hseen.symm) ?_
    · have hlatest := h.latest
      rw [hp] at hlatest
      obtain ⟨e, he, rfl⟩ := Option.map_eq_some_iff.1 hlatest
      rw [hseen, hshown, he]
      rfl
    · intro e he
      exact ⟨e, hshown ▸ he, .inl rfl⟩
  · refine hkeep ?_ ?_ ?_
    · rw [hseen, hshown, h.seen]
    · rw [hdisplayed, hseen, h.displayed]
    · rw [hshown]
      exact h.shown

/-! ## Moves of the parties -/

/-- A move that publishes nothing and drops no window. The current window may have changed. -/
theorem Faithful.move_of_latest (h : w.Faithful) {m : Move} (hexact : (w.parties.act m).worker.Exact)
    (hclosed : (w.parties.act m).worker.trace.closed.length = w.parties.worker.trace.closed.length)
    (hlatest : (w.parties.act m).shared.latest = w.parties.shared.latest) (hdrops : w.parties.drops m = false)
    (hcurrent : ∀ c, w.parties.worker.pipeline.engine.manager.current = some c →
      ∃ c', (w.parties.act m).worker.pipeline.engine.manager.current = some c' ∧ c.start ≤ c'.start) :
    (w.act (.move m)).Faithful := by
  have hedition : w.latestAfter (w.parties.act m) = w.latest := if_neg (by omega)
  simp only [act, hedition, hdrops, Bool.false_eq_true, if_false]
  refine ⟨hexact, h.latest.trans hlatest.symm, h.seen, h.displayed, h.resets, ?_, h.shown⟩
  intro e he hr
  obtain ⟨c, hc, hlt⟩ := h.ahead e he hr
  obtain ⟨c', hc', hle⟩ := hcurrent c hc
  exact ⟨c', hc', Int64.lt_of_lt_of_le hlt hle⟩

/-- An event closes windows, and the last of them is published. -/
theorem Faithful.move_of_published (h : w.Faithful) {m : Move} (hexact : (w.parties.act m).worker.Exact)
    (hclosed : w.parties.worker.trace.closed.length < (w.parties.act m).worker.trace.closed.length)
    {c v c' : Window} (hc : w.parties.worker.pipeline.engine.manager.current = some c)
    (hlatest : (w.parties.act m).shared.latest = some v.publication) (hdrops : w.parties.drops m = false)
    (hc' : (w.parties.act m).worker.pipeline.engine.manager.current = some c')
    (hle : c.start ≤ v.start) (hlt : v.start < c'.start) : (w.act (.move m)).Faithful := by
  have hedition : w.latestAfter (w.parties.act m) = some ⟨v.publication, w.resets⟩ := by
    rw [latestAfter, if_pos hclosed, hlatest]
    rfl
  simp only [act, hedition, hdrops, Bool.false_eq_true, if_false]
  refine ⟨hexact, hlatest.symm, h.seen, h.displayed, ?_, ?_, ?_⟩
  · rintro _ ⟨⟩
    exact Nat.le_refl _
  · rintro _ ⟨⟩ -
    exact ⟨c', hc', hlt⟩
  · intro e he
    obtain ⟨e', he', hupTo⟩ := h.shown e he
    refine ⟨_, rfl, hupTo.trans ?_⟩
    rcases Nat.lt_or_eq_of_le (h.resets e' he') with hr | hr
    · exact .inr (.inl hr)
    · obtain ⟨c₁, hc₁, hlt₁⟩ := h.ahead e' he' hr
      obtain rfl : c₁ = c := Option.some.inj (hc₁.symm.trans hc)
      exact .inr (.inr ⟨hr, Int64.lt_of_lt_of_le hlt₁ hle⟩)

variable {worker : Worker}

/-- The engine feeds an event. It may close windows, the current one first. -/
theorem Faithful.feed (h : w.Faithful) (hstep : w.parties.worker.step? = some worker) {session : SessionId} {e : Event}
    {rest : List Event} (hphase : w.parties.worker.phase = .feed session (e :: rest))
    (hpipeline : worker.pipeline = w.parties.worker.pipeline.feed e)
    (htrace : worker.trace = w.parties.worker.trace.feed
      (w.parties.worker.pipeline.engine.manager.process e w.parties.worker.pipeline.shared.control.recording)
      ⟨session, e⟩) : (w.act (.move .engine)).Faithful := by
  have hexact : worker.Exact := Worker.exact_step? h.exact hstep
  have hact : w.parties.act .engine = { w.parties with worker } := by simp [Parties.act, hstep]
  have hdrops : w.parties.drops .engine = false := by simp [Parties.drops, hphase]
  have hmanager := Pipeline.manager_feed w.parties.worker.pipeline e
  have hlatest := Pipeline.latest_feed w.parties.worker.pipeline e
  have hwindows := Trace.windows_feed
    (w.parties.worker.pipeline.engine.manager.process e w.parties.worker.pipeline.shared.control.recording)
    ⟨session, e⟩ w.parties.worker.trace
  rw [← hpipeline] at hmanager hlatest
  rw [← htrace] at hwindows
  have hclosed := congrArg List.length hwindows
  simp only [Trace.windows, List.length_map, List.length_append] at hclosed
  cases hc : w.parties.worker.pipeline.engine.manager.current with
  | none =>
    rw [WindowManager.closed_process_of_idle hc] at hlatest hclosed
    refine h.move_of_latest ?_ ?_ ?_ hdrops ?_
    · rwa [hact]
    · rwa [hact]
    · rwa [hact]
    · rw [hc]
      simp
  | some c =>
    obtain ⟨c', hc', hle, hlast⟩ := WindowManager.start_process hc (h.exact.stop c hc) e
      w.parties.worker.pipeline.shared.control.recording
    generalize w.parties.worker.pipeline.engine.manager.process e
      w.parties.worker.pipeline.shared.control.recording = step at hlatest hclosed hmanager hc' hlast
    rw [← hmanager] at hc'
    cases hv : step.closed.toList.getLast? with
    | none =>
      rw [hv] at hlatest
      rw [List.getLast?_eq_none_iff.1 hv] at hclosed
      refine h.move_of_latest ?_ ?_ ?_ hdrops ?_
      · rwa [hact]
      · rwa [hact]
      · rwa [hact]
      · intro c₁ hc₁
        obtain rfl : c₁ = c := Option.some.inj (hc₁.symm.trans hc)
        exact ⟨c', hact ▸ hc', hle⟩
    | some v =>
      rw [hv] at hlatest
      obtain ⟨hle, hlt⟩ := hlast v hv
      have hpos : 0 < step.closed.toList.length := List.length_pos_of_mem (List.mem_of_getLast? hv)
      refine h.move_of_published ?_ ?_ hc ?_ hdrops (hact ▸ hc') hle hlt
      · rwa [hact]
      · rw [hact]
        show w.parties.worker.trace.closed.length < worker.trace.closed.length
        omega
      · rwa [hact]

/-- The engine drops the current window. What was published before belongs to an earlier reset from then on. -/
theorem Faithful.drop (h : w.Faithful) (hstep : w.parties.worker.step? = some worker) {inHand : Option Batch}
    {width : UInt32} (hphase : w.parties.worker.phase = .readHeight inHand width)
    (hclosed : worker.trace.closed = w.parties.worker.trace.closed)
    (hlatest : worker.pipeline.shared.latest = w.parties.shared.latest) : (w.act (.move .engine)).Faithful := by
  have hact : w.parties.act .engine = { w.parties with worker } := by simp [Parties.act, hstep]
  have hdrops : w.parties.drops .engine = true := by simp [Parties.drops, hphase]
  have hedition : w.latestAfter (w.parties.act .engine) = w.latest := by
    rw [hact]
    exact if_neg (by simp [hclosed])
  simp only [act, hedition, hdrops, if_true]
  refine ⟨?_, ?_, h.seen, h.displayed, ?_, ?_, h.shown⟩
  · rw [hact]
    exact Worker.exact_step? h.exact hstep
  · rw [hact]
    exact h.latest.trans hlatest.symm
  · intro e he
    exact (h.resets e he).trans (Nat.le_succ _)
  · intro e he hr
    have hle := h.resets e he
    simp only at hr
    omega

/-- Where the engine drops a window, it is about to take a step. -/
theorem drops_eq_false {s : Parties} {m : Move}
    (hphase : ∀ inHand width, s.worker.phase = .readHeight inHand width → m ≠ .engine) : s.drops m = false := by
  unfold Parties.drops
  split
  · next hp => exact absurd rfl (hphase _ _ hp)
  · rfl

theorem Faithful.engine (h : w.Faithful) : (w.act (.move .engine)).Faithful := by
  cases hstep : w.parties.worker.step? with
  | none =>
    have hact : w.parties.act .engine = w.parties := by simp [Parties.act, hstep]
    refine h.move_of_latest ?_ ?_ ?_ (drops_eq_false ?_) ?_
    · rw [hact]
      exact h.exact
    · rw [hact]
    · rw [hact]
    · intro inHand width hphase
      generalize w.parties.worker = worker at hphase hstep
      obtain ⟨p, phase, trace⟩ := worker
      cases hphase
      cases hstep
    · rw [hact]
      exact fun c hc => ⟨c, hc, Int64.le_refl _⟩
  | some worker =>
    rcases Worker.latest_step? hstep with ⟨session, e, rest, hphase, hpipeline, htrace⟩ |
      ⟨inHand, width, hphase, hclosed, hlatest⟩ | ⟨hphase, htrace, hlatest, hmanager⟩
    · exact h.feed hstep hphase hpipeline htrace
    · exact h.drop hstep hphase hclosed hlatest
    · have hact : w.parties.act .engine = { w.parties with worker } := by simp [Parties.act, hstep]
      refine h.move_of_latest ?_ ?_ ?_ (drops_eq_false ?_) ?_
      · rw [hact]
        exact Worker.exact_step? h.exact hstep
      · rw [hact]
        exact congrArg (·.closed.length) htrace
      · rwa [hact]
      · exact fun inHand width hp => absurd hp (hphase inHand width)
      · rw [hact]
        intro c hc
        exact ⟨c, (congrArg WindowManager.current hmanager).trans hc, Int64.le_refl _⟩

theorem Faithful.act (h : w.Faithful) (m : WatchMove) : (w.act m).Faithful := by
  cases m with
  | refresh => exact h.refresh
  | move m =>
    by_cases hm : m = .engine
    · subst hm
      exact h.engine
    · obtain ⟨-, htrace, hengine, hlatest⟩ := w.parties.worker_act hm
      refine h.move_of_latest ?_ (by rw [htrace]) hlatest (drops_eq_false fun _ _ _ => hm) ?_
      · rw [Worker.Exact, htrace, hengine]
        exact h.exact
      · rw [hengine]
        exact fun c hc => ⟨c, hc, Int64.le_refl _⟩

theorem Faithful.run (h : w.Faithful) (moves : List WatchMove) : (w.run moves).Faithful := by
  induction moves generalizing w with
  | nil => exact h
  | cons m rest ih => exact ih (h.act m)

/-! ## Every run -/

/-- In whatever order the parties move and the console refreshes: after a refresh the display shows a frame with the
stamp of the latest one, if there is any, and it is the latest one unless the engine took a reset between the two. -/
theorem stale_only_after_reset (length : WindowLength) (capacity : Nat) (s : Shared) (i : Interpreter δ)
    (moves : List WatchMove) :
    let t := ((start length capacity s i).run moves).refresh
    ∀ p, t.parties.shared.latest = some p → ∃ e e', t.latest = some e ∧ e.published = p ∧ t.shown = some e' ∧
      t.console.display.last = some e'.published.stamp ∧ e'.published.stamp = p.stamp ∧
      (e'.published = p ∨ e'.resets < e.resets) := by
  intro t p hp
  have hbefore : ((start length capacity s i).run moves).Faithful := (faithful_start length capacity s i).run moves
  have h : t.Faithful := hbefore.refresh
  obtain ⟨e, he, rfl⟩ := Option.map_eq_some_iff.1 (h.latest.trans hp)
  -- Either way the console has now seen the stamp of the latest frame.
  have hseen : t.console.seen = some e.published.stamp := by
    have hparties : ((start length capacity s i).run moves).parties.shared.latest = some e.published := by
      rw [← hp]
      simp [t]
    rcases ((start length capacity s i).run moves).refresh_cases with ⟨p, hp', -, hseen, -⟩ | ⟨hsame, -, hseen, -⟩
    · rw [hseen, Option.some.inj (hp'.symm.trans hparties)]
    · exact hseen.trans (hsame _ hparties)
  obtain ⟨e', he', hstamp⟩ := Option.map_eq_some_iff.1 (h.seen.symm.trans hseen)
  obtain ⟨e'', he'', hupTo⟩ := h.shown e' he'
  obtain rfl : e'' = e := Option.some.inj (he''.symm.trans he)
  refine ⟨e'', e', he, rfl, he', ?_, hstamp, ?_⟩
  · rw [h.displayed, hseen, hstamp]
  · exact (hupTo.of_stamp_eq hstamp).imp (congrArg Edition.published) id

/-- The camera is switched on and sends an event and, at the end of its window, another. The window is published and
shown. -/
theorem stale_only_after_reset_one_session :
    let moves : List WatchMove := .map .move (List.flatten [[.switchOn ⟨2, 1⟩ true], .replicate 6 .console,
      [.deliver [⟨0, 0, .on, 0⟩, ⟨0, 0, .on, 2000⟩], .push], .replicate 12 .engine])
    let t := ((start .standard 4 (.initial 4) (default : Interpreter Unit)).run moves).refresh
    let p : Published := ⟨⟨0, 0⟩, ⟨⟨2, 1⟩, #[255, 0]⟩⟩
    t.parties.shared.latest = some p ∧ t.console.display.last = some p.stamp := by
  intro moves t p
  have hlatest : t.parties.shared.latest = some p := by decide +kernel
  obtain ⟨e, e', -, -, -, hlast, hstamp, -⟩ := stale_only_after_reset .standard 4 (.initial 4) default moves p hlatest
  exact ⟨hlatest, hstamp ▸ hlast⟩

/-- The camera is switched off and on again, and its clock begins anew. Both sessions publish a window that starts at
zero, of different pixels; the second one is not shown. -/
theorem stale_after_reset :
    let engine (steps : Nat) : List Move := List.replicate steps .engine
    let console (steps : Nat) : List Move := List.replicate steps .console
    let session (x : UInt16) : List Move :=
      List.flatten [[.switchOn ⟨2, 1⟩ true], console 6, [.deliver [⟨x, 0, .on, 0⟩, ⟨x, 0, .on, 2000⟩], .push],
        engine 12]
    let moves := List.flatten [(session 0).map .move, [.refresh],
      (List.flatten [[.switchOff], console 5, session 1]).map .move]
    let t := ((start .standard 4 (.initial 4) (default : Interpreter Unit)).run moves).refresh
    t.shown.map (·.published) = some ⟨⟨0, 0⟩, ⟨⟨2, 1⟩, #[255, 0]⟩⟩ ∧
      t.parties.shared.latest = some ⟨⟨0, 0⟩, ⟨⟨2, 1⟩, #[0, 255]⟩⟩ := by
  decide +kernel

end Watch

end EventCamera
