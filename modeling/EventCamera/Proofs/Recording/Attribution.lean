import EventCamera.Proofs.Recording.Logbook
/-!
# Which run a recorded window belongs to

A window is written into the directory of the run that is in force when it closes: `Logbook.filed_where_closed`. It
opened while that run was in force or, if the run began while it was open, before; so all files of a run directory
but the first are of windows that opened in the run. `Logbook.not_filed_where_opened`: the first need not be.

The key fact is that while the current window is of an earlier run, nothing has been written in the last run
(`Attributed.unfiled`).
-/

namespace EventCamera

/-! ## Latched flags -/

/-- The windows that an event opens take over the flag; a window that stays open keeps its own. -/
theorem WindowManager.recording_process {m : WindowManager}
    (hstop : ∀ w, m.current = some w → w.stop = w.start.plus m.length) (e : Event) (recording : Bool) :
    -- None closes.
    ((m.process e recording).closed.toList = [] ∧
      ∀ u, (m.process e recording).manager.current = some u → u.recording = m.current.elim recording Window.recording) ∨
    -- The current one closes, and those that were skipped.
    (∃ w skipped, m.current = some w ∧ (m.process e recording).closed.toList = w :: skipped ∧
      (∀ v ∈ skipped, v.recording = recording) ∧
      ∀ u, (m.process e recording).manager.current = some u → u.recording = recording) := by
  cases hg : m.geometry.isEmpty with
  | true =>
    rw [process_of_isEmpty hg]
    refine .inl ⟨rfl, ?_⟩
    intro u hu
    rw [show m.current = some u from hu]
    rfl
  | false =>
    cases hc : m.current with
    | none =>
      rw [process_of_idle hg hc]
      refine .inl ⟨rfl, ?_⟩
      rintro u ⟨⟩
      exact Window.recording_add ..
    | some w =>
      rw [process_of_current hg hc (hstop w hc)]
      rcases w.closings m.length e.t with _ | n
      · refine .inl ⟨rfl, ?_⟩
        rintro u ⟨⟩
        exact Window.recording_add ..
      · refine .inr ⟨w, (List.range n).map (fun k => w.ahead m.length recording (k + 1)), rfl, ?_, ?_, ?_⟩
        · simp [List.range_succ_eq_map, Function.comp_def]
        · intro v hv
          obtain ⟨k, -, rfl⟩ := List.mem_map.1 hv
          exact Window.recording_ahead k
        · rintro u ⟨⟩
          rw [Window.recording_add]
          exact Window.recording_ahead n

namespace Logbook

variable {s s' : Logbook} {root : Path}

/-! ## The invariant -/

/-- The file is of a window that opened while recording, and lies in the directory of the run in force when it
closed. -/
structure Belongs (dirs : List Path) (f : Filing) : Prop where
  recording : f.window.recording = true
  latched : f.opening.recording = true
  began : 1 ≤ f.opening.run
  opened : f.opening.run ≤ f.run
  path : dirs[f.run - 1]?.map (·.child (windowFileName f.number f.window.start)) = some f.path

theorem Belongs.run_le {dirs : List Path} {f : Filing} (h : Belongs dirs f) : f.run ≤ dirs.length := by
  obtain ⟨dir, hdir, -⟩ := Option.map_eq_some_iff.1 h.path
  have hlt := (List.getElem?_eq_some_iff.1 hdir).1
  omega

theorem Belongs.concat {dirs : List Path} {f : Filing} (h : Belongs dirs f) (dir : Path) :
    Belongs (dirs ++ [dir]) f := by
  have hle := h.run_le
  have hbegan := h.began
  have hopened := h.opened
  refine ⟨h.recording, h.latched, h.began, h.opened, ?_⟩
  rw [List.getElem?_append_left (by omega)]
  exact h.path

/-- The directory that has been made and not yet taken over. -/
def pending (s : Logbook) : List Path :=
  match s.command with
  | .recordingDir (some dir) :: _ => [dir]
  | _ => []

/-- The console has still to do nothing, all writes of a command, or those after the directory was taken over. -/
inductive Script (dirs : List Path) : List Control.Write → Prop where
  | idle : Script dirs []
  | whole (dir : Path) : Script dirs (Control.recordingWrites dir)
  | request (h : dirs ≠ []) : Script dirs [.requestRecordingReset, .recording true]
  | flag (h : dirs ≠ []) : Script dirs [.recording true]

/-- Files are where they belong, and will be. -/
structure Attributed (s : Logbook) : Prop where
  exact : s.worker.Exact
  apart : s.shared.files.Apart (s.dirs ++ s.pending)
  script : Script s.dirs s.command
  dir : s.shared.control.recordingDir = s.dirs.getLast?
  on : s.shared.control.recording = true → s.command = [] ∧ s.dirs ≠ []
  latched : ∀ w, s.manager.current = some w → w.recording = s.opening.recording
  opened : s.opening.run ≤ s.dirs.length
  began : s.opening.recording = true → 1 ≤ s.opening.run
  /-- Nothing is written in the last run before a window of an earlier one has closed. -/
  unfiled : s.opening.run < s.dirs.length → ∀ f ∈ s.filings, f.run < s.dirs.length
  filings : ∀ f ∈ s.filings, Belongs s.dirs f
  first : ∀ run, ∀ f ∈ (s.filings.filter (·.run = run)).tail, f.opening.run = run

theorem attributed_start (length : WindowLength) (shared : Shared) : (start length shared).Attributed where
  exact := Worker.exact_start length _
  apart := FileTree.apart_nil _
  script := .idle
  dir := rfl
  on := nofun
  latched := nofun
  opened := Nat.le_refl 0
  began := nofun
  unfiled := nofun
  filings := nofun
  first := nofun

/-- What neither writes files nor begins a run keeps the files where they belong. -/
theorem Attributed.spares (h : s.Attributed) (hexact : s'.worker.Exact)
    (hcurrent : s'.manager.current = s.manager.current ∨ s'.manager.current = none)
    (hfiles : s.shared.files.Keeps s'.shared.files)
    (hdir : s'.shared.control.recordingDir = s.shared.control.recordingDir)
    (hon : s'.shared.control.recording = true → s.shared.control.recording = true)
    (hcommand : s'.command = s.command) (hdirs : s'.dirs = s.dirs) (hopening : s'.opening = s.opening)
    (hfilings : s'.filings = s.filings) : s'.Attributed where
  exact := hexact
  apart := by
    rw [hdirs, pending, hcommand]
    exact h.apart.keeps hfiles
  script := by
    rw [hdirs, hcommand]
    exact h.script
  dir := by rw [hdir, hdirs, h.dir]
  on hr := by
    rw [hcommand, hdirs]
    exact h.on (hon hr)
  latched w hw := by
    rw [hopening]
    rcases hcurrent with hsame | hnone
    · exact h.latched w (hsame ▸ hw)
    · rw [hnone] at hw
      cases hw
  opened := by
    rw [hopening, hdirs]
    exact h.opened
  began := by
    rw [hopening]
    exact h.began
  unfiled := by
    rw [hopening, hdirs, hfilings]
    exact h.unfiled
  filings := by
    rw [hdirs, hfilings]
    exact h.filings
  first := by
    rw [hfilings]
    exact h.first

/-! ## Moves of the console -/

theorem Attributed.begin (h : s.Attributed) (root : Path) : (s.act root .begin).Attributed := by
  have hkeeps := keeps_createRun root s.shared.clock.read.1 s.shared.files
  unfold act
  dsimp only
  split
  · next hidle =>
    split
    · next files hrun =>
      rw [hrun] at hkeeps
      exact h.spares h.exact (.inl rfl) hkeeps rfl id rfl rfl rfl rfl
    · next dir files hrun =>
      have hpending : s.pending = [] := by rw [pending, hidle.1]
      have hapart := h.apart
      rw [hpending, List.append_nil] at hapart
      have hoff : s.shared.control.recording ≠ true := by simp [hidle.2]
      exact { h with
        apart := hapart.createRun hrun
        script := .whole dir
        on := fun hr => absurd hr hoff }
  · exact h

/-- Recording is off while a recording is being begun. -/
theorem Attributed.off_of_command (h : s.Attributed) {w : Control.Write} {rest : List Control.Write}
    (hcommand : s.command = w :: rest) : s.shared.control.recording ≠ true := by
  intro hr
  rw [(h.on hr).1] at hcommand
  cases hcommand

/-- The run directory is taken over, in which nothing has been written. -/
theorem Attributed.takeOver (h : s.Attributed) {dir : Path} (hcommand : s.command = Control.recordingWrites dir) :
    Attributed { s.perform (.recordingDir (some dir)) with command := [.requestRecordingReset, .recording true] } := by
  have hapart := h.apart
  rw [pending, hcommand] at hapart
  exact { h with
    apart := by
      show s.shared.files.Apart (s.dirs ++ [dir] ++ [])
      rw [List.append_nil]
      exact hapart
    script := .request (by simp [perform])
    dir := by
      show some dir = (s.dirs ++ [dir]).getLast?
      simp
    on := fun hr => absurd hr (h.off_of_command hcommand)
    opened := by
      show s.opening.run ≤ (s.dirs ++ [dir]).length
      have hopened := h.opened
      simp
      omega
    unfiled := by
      intro _ f hf
      show f.run < (s.dirs ++ [dir]).length
      have hle := (h.filings f hf).run_le
      rw [List.length_append, List.length_singleton]
      omega
    filings := fun f hf => (h.filings f hf).concat dir }

theorem Attributed.console (h : s.Attributed) (root : Path) : (s.act root .console).Attributed := by
  unfold act
  dsimp only
  cases hcommand : s.command with
  | nil => exact h
  | cons w rest =>
    have hscript := h.script
    have hapart := h.apart
    rw [pending] at hapart
    rw [hcommand] at hscript hapart
    cases hscript with
    | whole dir => exact h.takeOver hcommand
    | request hdirs =>
      exact { h with
        apart := hapart
        script := .flag hdirs
        on := fun hr => absurd hr (h.off_of_command hcommand) }
    | flag hdirs =>
      exact { h with
        apart := hapart
        script := .idle
        on := fun _ => ⟨rfl, hdirs⟩ }

theorem Attributed.set (h : s.Attributed) {w : Control.Write} (hw : w.sparesRecording = true) :
    (s.write w).Attributed := by
  have hcontrol : (s.shared.control.write w).recordingDir = s.shared.control.recordingDir ∧
      (s.shared.control.write w).recording = s.shared.control.recording := by
    cases w with
    | recording | requestRecordingReset | recordingDir => cases hw
    | _ => exact ⟨rfl, rfl⟩
  exact h.spares h.exact (.inl rfl) (.refl _) hcontrol.1 (fun hr => hcontrol.2 ▸ hr) rfl rfl rfl rfl

/-! ## Steps of the engine -/

/-- Each window carries the flag that was read when it opened. -/
theorem Attributed.latched_closedBy (h : s.Attributed) {e : Event} {p : Window × Opening} (hp : p ∈ s.closedBy e) :
    p.1.recording = p.2.recording ∧ (p.2 = s.opening ∨ p.2 = s.openingNow) := by
  unfold closedBy at hp
  rcases WindowManager.recording_process h.exact.stop e s.shared.control.recording with
    ⟨hclosed, -⟩ | ⟨w, skipped, hw, hclosed, hskipped, -⟩
  · rw [show (s.manager.process e s.shared.control.recording).closed.toList = [] from hclosed] at hp
    cases hp
  · rw [show (s.manager.process e s.shared.control.recording).closed.toList = w :: skipped from hclosed, withOpenings,
      List.mem_cons] at hp
    rcases hp with rfl | hp
    · exact ⟨h.latched w hw, .inl rfl⟩
    · obtain ⟨v, hv, rfl⟩ := List.mem_map.1 hp
      exact ⟨hskipped v hv, .inr rfl⟩

theorem Attributed.latched_openingAfter (h : s.Attributed) {e : Event} {u : Window}
    (hu : (s.manager.process e s.shared.control.recording).manager.current = some u) :
    u.recording = (s.openingAfter e).recording := by
  unfold openingAfter closedBy
  rcases WindowManager.recording_process h.exact.stop e s.shared.control.recording with
    ⟨hclosed, hcurrent⟩ | ⟨w, skipped, hw, hclosed, -, hcurrent⟩
  · rw [show (s.manager.process e s.shared.control.recording).closed.toList = [] from hclosed, hcurrent u hu]
    cases hc : s.manager.current with
    | none =>
      rw [show s.worker.pipeline.engine.manager.current = none from hc]
      rfl
    | some w =>
      rw [show s.worker.pipeline.engine.manager.current = some w from hc]
      exact h.latched w hc
  · rw [show (s.manager.process e s.shared.control.recording).closed.toList = w :: skipped from hclosed, hcurrent u hu]
    rw [if_neg (by simp [withOpenings])]
    rfl

/-- A file is written in the last run. -/
theorem Attributed.belongs (h : s.Attributed) {e : Event} {f : Filing} (hf : f ∈ s.filingsOf e) :
    f.run = s.dirs.length ∧ Belongs s.dirs f ∧ (f.opening = s.opening ∨ f.opening = s.openingNow) := by
  obtain ⟨hp, hr, hrun, -, dir, hdir, hpath⟩ := mem_filings hf
  obtain ⟨hlatched, hopening⟩ := h.latched_closedBy hp
  have hon : f.opening.recording = true := hlatched ▸ hr
  refine ⟨hrun, ⟨hr, hon, ?_, ?_, ?_⟩, hopening⟩
  · rcases hopening with ho | ho
    · rw [show f.opening = s.opening from ho] at hon ⊢
      exact h.began hon
    · rw [show f.opening = s.openingNow from ho] at hon ⊢
      exact List.length_pos_of_ne_nil (h.on hon).2
  · rw [hrun]
    rcases hopening with ho | ho
    · rw [show f.opening = s.opening from ho]
      exact h.opened
    · rw [show f.opening = s.openingNow from ho]
      exact Nat.le_refl _
  · have hlast : s.dirs.getLast? = some dir := h.dir.symm.trans hdir
    rw [List.getLast?_eq_getElem?] at hlast
    rw [hrun, hlast, hpath]
    rfl

theorem filingsOf_of_closedBy {e : Event} (h : s.closedBy e = []) : s.filingsOf e = [] := by
  rw [filingsOf, h]
  rfl

/-- While the window that is current after an event is of an earlier run, the event has closed none. -/
theorem closedBy_of_openingAfter {e : Event} (h : (s.openingAfter e).run < s.dirs.length) :
    s.closedBy e = [] ∧ s.openingAfter e = s.opening := by
  unfold openingAfter at h ⊢
  split at h
  · next hstay =>
    rw [Bool.and_eq_true, List.isEmpty_iff] at hstay
    exact ⟨hstay.2, if_pos (by simp [hstay])⟩
  · exact absurd h (Nat.lt_irrefl _)

/-- Of the files of a run, those that an event adds are of windows of the run, except that the first file of all may
be of the window that was current. -/
theorem Attributed.first_feed (h : s.Attributed) (e : Event) (run : Nat) {f : Filing}
    (hf : f ∈ ((s.filings ++ s.filingsOf e).filter (·.run = run)).tail) : f.opening.run = run := by
  rw [List.filter_append] at hf
  by_cases hrun : run = s.dirs.length
  · have hall : (s.filingsOf e).filter (·.run = run) = s.filingsOf e := by
      rw [List.filter_eq_self]
      intro g hg
      rw [(h.belongs hg).1, hrun]
      exact decide_eq_true rfl
    rw [hall] at hf
    rcases hbefore : s.filings.filter (·.run = run) with _ | ⟨g, rest⟩
    · -- These are the first files of the run.
      rw [hbefore, List.nil_append] at hf
      rw [opening_of_mem_tail_filings hf, hrun]
      rfl
    · rw [hbefore, List.cons_append, List.tail_cons, List.mem_append] at hf
      rcases hf with hf | hf
      · refine h.first run f ?_
        rw [hbefore]
        exact hf
      · -- There are files of the run already, so the current window is not of an earlier one.
        have hg : g ∈ s.filings ∧ g.run = run := by
          have hmem : g ∈ s.filings.filter (·.run = run) := by simp [hbefore]
          simpa using hmem
        have hcurrent : s.opening.run = run := by
          have hopened := h.opened
          by_contra hne
          have hlt := h.unfiled (by omega) g hg.1
          omega
        rcases (h.belongs hf).2.2 with ho | ho
        · rw [ho, hcurrent]
        · rw [ho, hrun]
          rfl
  · have hnone : (s.filingsOf e).filter (·.run = run) = [] := by
      rw [List.filter_eq_nil_iff]
      intro g hg
      rw [(h.belongs hg).1, decide_eq_true_eq]
      exact Ne.symm hrun
    rw [hnone, List.append_nil] at hf
    exact h.first run f hf

/-- Directories stay while an event is fed. -/
theorem keeps_feed (p : Pipeline) (e : Event) : p.shared.files.Keeps (p.feed e).shared.files := by
  have hkeeps := keeps_foldl_finishWindow (p.engine.manager.process e p.shared.control.recording).closed.toList
    (p.engine.recorder, p.shared)
  rw [Pipeline.feed_eq]
  dsimp only
  cases (p.engine.manager.process e p.shared.control.recording).outcome <;> exact hkeeps

theorem Attributed.feed (h : s.Attributed) {session : SessionId} {e : Event} {rest : List Event} {worker : Worker}
    (hstep : s.worker.step? = some worker) (hphase : s.worker.phase = .feed session (e :: rest))
    (hpipeline : worker.pipeline = s.worker.pipeline.feed e) : (s.advance worker).Attributed := by
  have hcontrol : worker.pipeline.shared.control = s.shared.control := by
    rw [hpipeline, Pipeline.control_feed]
    rfl
  have hmanager : worker.pipeline.engine.manager =
      (s.manager.process e s.shared.control.recording).manager := by
    rw [hpipeline, Pipeline.manager_feed]
    rfl
  have hfiles : s.shared.files.Keeps worker.pipeline.shared.files := by
    rw [hpipeline]
    exact keeps_feed s.worker.pipeline e
  rw [advance_of_feed hphase]
  exact { h with
    exact := Worker.exact_step? h.exact hstep
    apart := h.apart.keeps hfiles
    dir := by
      show worker.pipeline.shared.control.recordingDir = _
      rw [hcontrol]
      exact h.dir
    on := by
      show worker.pipeline.shared.control.recording = true → _
      rw [hcontrol]
      exact h.on
    latched := by
      intro w hw
      refine h.latched_openingAfter ?_
      rw [← hmanager]
      exact hw
    opened := by
      show (s.openingAfter e).run ≤ s.dirs.length
      unfold openingAfter
      split
      · exact h.opened
      · exact Nat.le_refl _
    began := by
      show (s.openingAfter e).recording = true → 1 ≤ (s.openingAfter e).run
      unfold openingAfter
      split
      · exact h.began
      · exact fun hon => List.length_pos_of_ne_nil (h.on hon).2
    unfiled := by
      intro hlt
      obtain ⟨hclosed, hopening⟩ := closedBy_of_openingAfter hlt
      show ∀ f ∈ s.filings ++ s.filingsOf e, f.run < s.dirs.length
      rw [filingsOf_of_closedBy hclosed, List.append_nil]
      refine h.unfiled ?_
      rw [← hopening]
      exact hlt
    filings := by
      intro f hf
      rcases List.mem_append.1 hf with hf | hf
      · exact h.filings f hf
      · exact (h.belongs hf).2.1
    first := fun run _ hf => h.first_feed e run hf }

theorem Attributed.step (h : s.Attributed) {worker : Worker} (hstep : s.worker.step? = some worker) :
    (s.advance worker).Attributed := by
  have hexact := Worker.exact_step? h.exact hstep
  rcases Worker.step?_cases hstep with ⟨session, e, rest, hphase, -, hpipeline⟩ | ⟨inHand, hphase, hpipeline⟩ |
    ⟨hfeed, htake, -, ⟨reset, hcontrol⟩, hfiles, -, -, hmanager⟩
  · exact h.feed hstep hphase hpipeline
  · rw [Pipeline.applyRecordingReset_eq] at hpipeline
    have hkeeps : s.shared.files.Keeps worker.pipeline.shared.files := by
      rw [hpipeline]
      exact .refl _
    have hcurrent : worker.pipeline.engine.manager.current = s.manager.current := by
      rw [hpipeline]
      rfl
    have hdir : worker.pipeline.shared.control.recordingDir = s.shared.control.recordingDir := by
      rw [hpipeline]
      rfl
    have hon : worker.pipeline.shared.control.recording = s.shared.control.recording := by
      rw [hpipeline]
      rfl
    rw [advance_of_take hphase]
    exact h.spares hexact (.inl hcurrent) hkeeps hdir (fun hr => hon ▸ hr) rfl rfl rfl rfl
  · have hkeeps : s.shared.files.Keeps worker.pipeline.shared.files := by
      rw [hfiles]
      exact .refl _
    have hdir : worker.pipeline.shared.control.recordingDir = s.shared.control.recordingDir := by
      rw [hcontrol]
      rfl
    have hon : worker.pipeline.shared.control.recording = s.shared.control.recording := by
      rw [hcontrol]
      rfl
    rw [advance_of_other hfeed htake]
    refine h.spares hexact ?_ hkeeps hdir (fun hr => hon ▸ hr) rfl rfl rfl rfl
    exact hmanager.imp_left (congrArg WindowManager.current)

/-! ## Every run -/

theorem Attributed.act (h : s.Attributed) (m : RecordingMove) : (s.act root m).Attributed := by
  cases m with
  | begin => exact h.begin root
  | console => exact h.console root
  | stop =>
    unfold Logbook.act
    dsimp only
    split
    · exact h.spares h.exact (.inl rfl) (.refl _) rfl nofun rfl rfl rfl rfl
    · exact h
  | set w =>
    unfold Logbook.act
    dsimp only
    split
    · next hw => exact h.set hw
    · exact h
  | arrive b => exact h.spares h.exact (.inl rfl) (.refl _) rfl id rfl rfl rfl rfl
  | engine =>
    unfold Logbook.act
    dsimp only
    split
    · exact h
    · next hstep => exact h.step hstep

theorem Attributed.run (h : s.Attributed) (moves : List RecordingMove) : (s.run root moves).Attributed := by
  induction moves generalizing s with
  | nil => exact h
  | cons m rest ih => exact ih (h.act m)

/-- A recorded window belongs to the run in force when it closes. Whatever recordings begin and end while the engine
works: every file that is written is of a window that opened while recording was on, and lies in the directory of the
run that was the last to begin before the window closed. That run began no earlier than the window opened, unless it
began while the window was open; so of the files of a run directory only the first can be of a window that opened
before the run began. The run directories are different directories, and the files are all that the program counts. -/
theorem filed_where_closed (length : WindowLength) (shared : Shared) (root : Path) (moves : List RecordingMove) :
    let t := (start length shared).run root moves
    (∀ f ∈ t.filings, f.window.recording = true ∧ f.opening.recording = true ∧
      1 ≤ f.opening.run ∧ f.opening.run ≤ f.run ∧
      t.dirs[f.run - 1]?.map (·.child (windowFileName f.number f.window.start)) = some f.path) ∧
    (∀ run, ∀ f ∈ (t.filings.filter (·.run = run)).tail, f.opening.run = run) ∧
    t.shared.files.Apart t.dirs ∧
    t.shared.counters.recorded = shared.counters.recorded + .ofNat t.filings.length := by
  intro t
  have h : t.Attributed := (attributed_start length shared).run moves
  refine ⟨?_, h.first, ?_, (complete_start length shared).run moves⟩
  · intro f hf
    have hb := h.filings f hf
    exact ⟨hb.recording, hb.latched, hb.began, hb.opened, hb.path⟩
  · have hleads := h.apart.leads
    have hdistinct := h.apart.distinct
    exact ⟨fun dir hdir => hleads dir (List.mem_append_left _ hdir), (List.pairwise_append.1 hdistinct).1⟩

/-- A recording ends and the next begins while a window is open. The window is written into the directory of the
second run and not into that of the run in which it opened. -/
theorem not_filed_where_opened :
    let engine (steps : Nat) : List RecordingMove := List.replicate steps .engine
    let arrive (events : List Event) : List RecordingMove := [.arrive ⟨0, events⟩]
    let begin : List RecordingMove := [.begin, .console, .console, .console]
    let moves := List.flatten [[.set (.width 2), .set (.height 2), .set .requestReset], begin,
      arrive [⟨1, 1, .on, 0⟩], engine 12, [.stop], begin, arrive [⟨0, 0, .on, 2000⟩], engine 10]
    let t := (start .standard (.initial 4)).run ⟨"r"⟩ moves
    ¬∀ f ∈ t.filings,
      t.dirs[f.opening.run - 1]?.map (·.child (windowFileName f.number f.window.start)) = some f.path := by
  decide +kernel

end Logbook

end EventCamera
