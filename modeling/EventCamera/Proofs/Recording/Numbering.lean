import EventCamera.Proofs.Recording.Attribution
/-!
# Numbers of the files of a run

The engine takes requests for new numbers only between batches, but it sees a new run directory at once. So a run
directory can hold files that go on with the numbers of the run before: those written before the request, and those
of a batch that was in progress then. All others are numbered from one on in the order in which they were written
(`Logbook.numbered_from_restart`). `Logbook.not_numbered_from_one`: all files together need not be.
-/

namespace EventCamera.Logbook

variable {s s' : Logbook} {root : Path}

/-- The files of a run that were written after its numbers had been restarted. -/
def renumbered (s : Logbook) (run : Nat) : List Filing :=
  s.filings.filter fun f => f.run = run ∧ f.numbering = .restarted

/-- Numbers of a run are counted from its restart on, and a restart that is requested will come. -/
structure Counted (s : Logbook) : Prop where
  requested : ∀ inBatch, s.numbering = .requested inBatch → s.shared.control.recordingResetRequested = true
  between : s.numbering = .requested false → s.worker.phase.inBatch = false
  script : s.command = [.requestRecordingReset, .recording true] → s.numbering = .old
  restarted : s.numbering = .restarted → s.shared.control.recordingResetRequested = false ∧
    s.worker.pipeline.engine.recorder.written = .ofNat (s.renumbered s.dirs.length).length
  waiting : s.numbering ≠ .restarted → s.renumbered s.dirs.length = []
  numbers : ∀ run, (s.renumbered run).map Filing.number =
    (List.range (s.renumbered run).length).map fun k => .ofNat (k + 1)
  run_le : ∀ f ∈ s.filings, f.run ≤ s.dirs.length
  clean : ∀ f ∈ s.filings, f.numbering ≠ .requested false
  order : ∀ run, (s.filings.filter (·.run = run)).Pairwise fun f g =>
    f.numbering = .restarted → g.numbering = .restarted

theorem counted_start (length : WindowLength) (shared : Shared) : (start length shared).Counted where
  requested := nofun
  between := nofun
  script := nofun
  restarted := nofun
  waiting _ := rfl
  numbers _ := rfl
  run_le := nofun
  clean := nofun
  order _ := .nil

/-- What writes no files and touches no numbers keeps them counted. -/
theorem Counted.spares (h : s.Counted)
    (hreset : s'.shared.control.recordingResetRequested = s.shared.control.recordingResetRequested)
    (hrecorder : s'.worker.pipeline.engine.recorder = s.worker.pipeline.engine.recorder)
    (hphase : s'.worker.phase.inBatch = true → s.worker.phase.inBatch = true)
    (hcommand : s'.command = [.requestRecordingReset, .recording true] →
      s.command = [.requestRecordingReset, .recording true])
    (hdirs : s'.dirs = s.dirs) (hnumbering : s'.numbering = s.numbering) (hfilings : s'.filings = s.filings) :
    s'.Counted where
  requested := by
    rw [hnumbering, hreset]
    exact h.requested
  between hn := by
    rw [hnumbering] at hn
    have hbefore := h.between hn
    by_contra hafter
    rw [hphase (by simpa using hafter)] at hbefore
    cases hbefore
  script hc := by
    rw [hnumbering]
    exact h.script (hcommand hc)
  restarted := by
    rw [hnumbering, hreset, hrecorder, renumbered, hdirs, hfilings]
    exact h.restarted
  waiting := by
    rw [hnumbering, renumbered, hdirs, hfilings]
    exact h.waiting
  numbers := by
    unfold renumbered
    rw [hfilings]
    exact h.numbers
  run_le := by
    rw [hdirs, hfilings]
    exact h.run_le
  clean := by
    rw [hfilings]
    exact h.clean
  order := by
    rw [hfilings]
    exact h.order

/-! ## Moves of the console -/

theorem Counted.begin (h : s.Counted) (root : Path) : (s.act root .begin).Counted := by
  unfold act
  dsimp only
  split
  · split
    · exact h.spares rfl rfl id id rfl rfl rfl
    · exact h.spares rfl rfl id nofun rfl rfl rfl
  · exact h

/-- No file of the new run has been written. -/
theorem Counted.takeOver (h : s.Counted) (dir : Path) :
    Counted { s.perform (.recordingDir (some dir)) with command := [.requestRecordingReset, .recording true] } :=
  { h with
    requested := nofun
    between := nofun
    script := fun _ => rfl
    restarted := nofun
    waiting := by
      intro _
      show s.filings.filter _ = []
      rw [List.filter_eq_nil_iff]
      intro f hf hrun
      have hle := h.run_le f hf
      have heq : f.run = (s.dirs ++ [dir]).length := (of_decide_eq_true hrun).1
      rw [List.length_append, List.length_singleton] at heq
      omega
    run_le := by
      intro f hf
      show f.run ≤ (s.dirs ++ [dir]).length
      have hle := h.run_le f hf
      rw [List.length_append, List.length_singleton]
      omega }

/-- A restart is requested, and nothing was counted for the run before. -/
theorem Counted.request (h : s.Counted) (hcommand : s.command = [.requestRecordingReset, .recording true]) :
    Counted { s.perform .requestRecordingReset with command := [.recording true] } :=
  { h with
    requested := fun _ _ => rfl
    between := fun hn => Numbering.requested.inj hn
    script := nofun
    restarted := nofun
    waiting := fun _ => h.waiting (by simp [h.script hcommand]) }

theorem Counted.console (ha : s.Attributed) (h : s.Counted) (root : Path) : (s.act root .console).Counted := by
  unfold act
  dsimp only
  cases hcommand : s.command with
  | nil => exact h
  | cons w rest =>
    have hscript := ha.script
    rw [hcommand] at hscript
    cases hscript with
    | whole dir => exact h.takeOver dir
    | request => exact h.request hcommand
    | flag => exact h.spares rfl rfl id nofun rfl rfl rfl

theorem Counted.set (h : s.Counted) {w : Control.Write} (hw : w.sparesRecording = true) : (s.write w).Counted := by
  have hreset : (s.shared.control.write w).recordingResetRequested = s.shared.control.recordingResetRequested := by
    cases w with
    | recording | requestRecordingReset | recordingDir => cases hw
    | _ => rfl
  exact h.spares hreset rfl id id rfl rfl rfl

/-! ## Steps of the engine -/

theorem numbering_of_mem_filingsOf {e : Event} {f : Filing} (hf : f ∈ s.filingsOf e) :
    f.run = s.dirs.length ∧ f.numbering = s.numbering := by
  obtain ⟨-, -, hrun, hnumbering, -⟩ := mem_filings hf
  exact ⟨hrun, hnumbering⟩

/-- The files that an event writes are all of the last run, and count for it if its numbers have been restarted. -/
theorem filter_filingsOf (e : Event) (run : Nat) :
    (s.filingsOf e).filter (fun f => f.run = run ∧ f.numbering = .restarted) =
      if run = s.dirs.length ∧ s.numbering = .restarted then s.filingsOf e else [] := by
  split
  · next h =>
    rw [List.filter_eq_self]
    intro f hf
    obtain ⟨hrun, hnumbering⟩ := numbering_of_mem_filingsOf hf
    exact decide_eq_true ⟨hrun.trans h.1.symm, hnumbering.trans h.2⟩
  · next h =>
    rw [List.filter_eq_nil_iff]
    intro f hf hkept
    obtain ⟨hrun, hnumbering⟩ := numbering_of_mem_filingsOf hf
    obtain ⟨hrun', hnumbering'⟩ := of_decide_eq_true hkept
    exact h ⟨hrun'.symm.trans hrun, hnumbering.symm.trans hnumbering'⟩

/-- How the files that count for a run grow with an event. -/
theorem renumbered_append (s' : Logbook) {e : Event} (h : s'.filings = s.filings ++ s.filingsOf e) (run : Nat) :
    s'.renumbered run = s.renumbered run ++
      if run = s.dirs.length ∧ s.numbering = .restarted then s.filingsOf e else [] := by
  unfold renumbered
  rw [h, List.filter_append, filter_filingsOf]

/-- Files go on with the numbers of those before them. -/
theorem Counted.numbers_append (h : s.Counted) (e : Event) (run : Nat) :
    let fs := s.renumbered run ++ if run = s.dirs.length ∧ s.numbering = .restarted then s.filingsOf e else []
    fs.map Filing.number = (List.range fs.length).map fun k => .ofNat (k + 1) := by
  dsimp only
  split
  · next hlast =>
    obtain ⟨rfl, hrestarted⟩ := hlast
    have hadded := (number_filings s.dirs.length s.numbering (s.closedBy e)
      (s.worker.pipeline.engine.recorder, s.shared)).1
    rw [List.map_append, List.length_append, List.range_add, List.map_append, List.map_map, h.numbers]
    refine congrArg (_ ++ ·) (hadded.trans (List.map_congr_left ?_))
    intro k _
    rw [(h.restarted hrestarted).2, ← UInt64.ofNat_add]
    rfl
  · rw [List.append_nil]
    exact h.numbers run

theorem Counted.feed (h : s.Counted) {session : SessionId} {e : Event} {rest : List Event} {worker : Worker}
    (hphase : s.worker.phase = .feed session (e :: rest)) (hpipeline : worker.pipeline = s.worker.pipeline.feed e) :
    (s.advance worker).Counted := by
  have hreset : worker.pipeline.shared.control.recordingResetRequested =
      s.shared.control.recordingResetRequested := by
    rw [hpipeline, Pipeline.control_feed]
    rfl
  have hbusy : s.numbering ≠ .requested false := by
    intro hn
    have hidle := h.between hn
    rw [hphase] at hidle
    cases hidle
  rw [advance_of_feed hphase]
  have hgrow := renumbered_append { s with
    worker, opening := s.openingAfter e, filings := s.filings ++ s.filingsOf e } rfl
  exact { h with
    requested := by
      show ∀ inBatch, s.numbering = .requested inBatch → worker.pipeline.shared.control.recordingResetRequested = true
      rw [hreset]
      exact h.requested
    between := fun hn => absurd hn hbusy
    restarted := by
      intro hrestarted
      obtain ⟨htaken, hwritten⟩ := h.restarted hrestarted
      refine ⟨hreset.trans htaken, ?_⟩
      show worker.pipeline.engine.recorder.written = _
      rw [hgrow, if_pos ⟨rfl, hrestarted⟩, List.length_append, UInt64.ofNat_add, hpipeline, (s.counts_feed e).1,
        hwritten]
    waiting := by
      intro hwaiting
      rw [hgrow, if_neg fun hlast => hwaiting hlast.2, List.append_nil]
      exact h.waiting hwaiting
    numbers := by
      intro run
      rw [hgrow]
      exact h.numbers_append e run
    run_le := by
      intro f hf
      rcases List.mem_append.1 hf with hf | hf
      · exact h.run_le f hf
      · exact Nat.le_of_eq (numbering_of_mem_filingsOf hf).1
    clean := by
      intro f hf
      rcases List.mem_append.1 hf with hf | hf
      · exact h.clean f hf
      · rw [(numbering_of_mem_filingsOf hf).2]
        exact hbusy
    order := by
      intro run
      show ((s.filings ++ s.filingsOf e).filter _).Pairwise _
      rw [List.filter_append]
      refine List.pairwise_append.2 ⟨h.order run, ?_, ?_⟩
      · refine List.pairwise_of_forall_mem_list ?_
        intro f hf g hg hrestarted
        rw [(numbering_of_mem_filingsOf (List.mem_filter.1 hg).1).2]
        rw [(numbering_of_mem_filingsOf (List.mem_filter.1 hf).1).2] at hrestarted
        exact hrestarted
      · intro f hf g hg hrestarted
        obtain ⟨hg, hrun⟩ := List.mem_filter.1 hg
        obtain ⟨hlast, hnumbering⟩ := numbering_of_mem_filingsOf hg
        -- A file counts for the last run only once its numbers have been restarted.
        rw [hnumbering]
        by_contra hwaiting
        have hnone := h.waiting hwaiting
        rw [renumbered, List.filter_eq_nil_iff] at hnone
        obtain ⟨hf, hrun'⟩ := List.mem_filter.1 hf
        refine hnone f hf (decide_eq_true ⟨?_, hrestarted⟩)
        rw [of_decide_eq_true hrun', ← of_decide_eq_true hrun, hlast] }

theorem Counted.take (h : s.Counted) {inHand : Option Batch} {worker : Worker}
    (hphase : s.worker.phase = .takeRecordingReset inHand)
    (hpipeline : worker.pipeline = s.worker.pipeline.applyRecordingReset) : (s.advance worker).Counted := by
  rw [Pipeline.applyRecordingReset_eq] at hpipeline
  have htaken : worker.pipeline.shared.control.recordingResetRequested = false := by rw [hpipeline]
  have hrecorder : worker.pipeline.engine.recorder =
      if s.shared.control.recordingResetRequested then .new else s.worker.pipeline.engine.recorder := by
    rw [hpipeline]
    rfl
  rw [advance_of_take hphase]
  cases hn : s.numbering with
  | old =>
    have hsame : (if s.shared.control.recordingResetRequested then Numbering.old.take else .old) = .old := by
      split <;> rfl
    rw [hsame]
    exact { h with
      requested := nofun
      between := nofun
      script := fun _ => rfl
      restarted := nofun
      waiting := fun _ => h.waiting (by simp [hn]) }
  | requested inBatch =>
    have hpending := h.requested inBatch hn
    have hnew : worker.pipeline.engine.recorder = .new := by rw [hrecorder, if_pos hpending]
    rw [if_pos hpending]
    exact { h with
      requested := nofun
      between := nofun
      script := fun hc => by
        rw [h.script hc] at hn
        cases hn
      restarted := fun _ => by
        refine ⟨htaken, ?_⟩
        show worker.pipeline.engine.recorder.written = .ofNat (s.renumbered s.dirs.length).length
        rw [hnew, h.waiting (by simp [hn])]
        rfl
      waiting := fun hwaiting => absurd rfl hwaiting }
  | restarted =>
    obtain ⟨hidle, hwritten⟩ := h.restarted hn
    rw [if_neg (by simp [hidle])]
    rw [if_neg (by simp [hidle])] at hrecorder
    exact { h with
      requested := nofun
      between := nofun
      script := fun hc => by
        rw [h.script hc] at hn
        cases hn
      restarted := fun _ => by
        refine ⟨htaken, ?_⟩
        show worker.pipeline.engine.recorder.written = .ofNat (s.renumbered s.dirs.length).length
        rw [hrecorder, hwritten]
      waiting := fun hwaiting => absurd rfl hwaiting }

/-- A batch that was in progress when a restart was requested may be over now. -/
theorem Counted.goOn (h : s.Counted) : Counted { s with numbering := s.numbering.goOn s.worker.phase } := by
  cases hn : s.numbering with
  | requested inBatch =>
    exact { h with
      requested := fun _ _ => h.requested inBatch hn
      between := by
        intro hover
        cases inBatch with
        | false => exact h.between hn
        | true => exact Numbering.requested.inj hover
      script := fun hc => by
        rw [h.script hc] at hn
        cases hn
      restarted := nofun
      waiting := fun _ => h.waiting (by simp [hn]) }
  | old | restarted =>
    rw [Numbering.goOn, ← hn]
    · exact h
    · nofun

theorem Counted.step (h : s.Counted) {worker : Worker} (hstep : s.worker.step? = some worker) :
    (s.advance worker).Counted := by
  rcases Worker.step?_cases hstep with ⟨session, e, rest, hphase, -, hpipeline⟩ | ⟨inHand, hphase, hpipeline⟩ |
    ⟨hfeed, htake, hbatch, ⟨reset, hcontrol⟩, -, -, hrecorder, -⟩
  · exact h.feed hphase hpipeline
  · exact h.take hphase hpipeline
  · have hrequest : worker.pipeline.shared.control.recordingResetRequested =
        s.shared.control.recordingResetRequested := by
      rw [hcontrol]
      rfl
    have hworked : Counted { s with worker } := h.spares hrequest hrecorder hbatch id rfl rfl rfl
    rw [advance_of_other hfeed htake]
    exact hworked.goOn

/-! ## Every run -/

theorem Counted.act (ha : s.Attributed) (h : s.Counted) (m : RecordingMove) : (s.act root m).Counted := by
  cases m with
  | begin => exact h.begin root
  | console => exact h.console ha root
  | stop =>
    unfold Logbook.act
    dsimp only
    split
    · exact h.spares rfl rfl id id rfl rfl rfl
    · exact h
  | set w =>
    unfold Logbook.act
    dsimp only
    split
    · next hw => exact h.set hw
    · exact h
  | arrive b => exact h.spares rfl rfl id id rfl rfl rfl
  | engine =>
    unfold Logbook.act
    dsimp only
    split
    · exact h
    · next hstep => exact h.step hstep

theorem Counted.run (ha : s.Attributed) (h : s.Counted) (moves : List RecordingMove) : (s.run root moves).Counted := by
  induction moves generalizing s with
  | nil => exact h
  | cons m rest ih => exact ih (ha.act m) (h.act ha m)

/-- Files are numbered from the restart of the numbers on. Whatever recordings begin and end while the engine works,
the number of a file is in its name, and of the files that were written into a run directory after the engine had
taken the request of that run the `k`-th has number `k`; so no two of them share a number, as long as numbers do not
wrap. The files written before it took the request come first. They were written before the request was made, or after
it by a batch that was in progress when it was made. -/
theorem numbered_from_restart (length : WindowLength) (shared : Shared) (root : Path) (moves : List RecordingMove) :
    let t := (start length shared).run root moves
    (∀ f ∈ t.filings, t.dirs[f.run - 1]?.map (·.child (windowFileName f.number f.window.start)) = some f.path) ∧
    (∀ run k (f : Filing), (t.renumbered run)[k]? = some f → f.number = .ofNat (k + 1)) ∧
    (∀ run, (t.renumbered run).length < 2 ^ 64 → ((t.renumbered run).map Filing.number).Nodup) ∧
    (∀ run, (t.filings.filter (·.run = run)).Pairwise fun f g =>
      f.numbering = .restarted → g.numbering = .restarted) ∧
    ∀ f ∈ t.filings, f.numbering ≠ .requested false := by
  intro t
  have ha : t.Attributed := (attributed_start length shared).run moves
  have h : t.Counted := (counted_start length shared).run (attributed_start length shared) moves
  refine ⟨fun f hf => (ha.filings f hf).path, ?_, ?_, h.order, h.clean⟩
  · intro run k f hf
    have hlt := (List.getElem?_eq_some_iff.1 hf).1
    have hnumber := congrArg (·[k]?) (h.numbers run)
    simp only [List.getElem?_map, hf, List.getElem?_range hlt, Option.map_some] at hnumber
    exact Option.some.inj hnumber
  · intro run hlength
    rw [h.numbers run]
    refine List.Nodup.map_on ?_ List.nodup_range
    intro i hi j hj heq
    rw [List.mem_range] at hi hj
    have hnat := congrArg UInt64.toNat heq
    rw [UInt64.toNat_ofNat', UInt64.toNat_ofNat', Nat.mod_eq_of_lt (by omega), Nat.mod_eq_of_lt (by omega)] at hnat
    omega

/-- A batch is processed after the second run directory was taken over and before the reset is requested. The first
file in that directory has number two, and so has the third. -/
theorem not_numbered_from_one :
    let engine (steps : Nat) : List RecordingMove := List.replicate steps .engine
    let arrive (events : List Event) : List RecordingMove := [.arrive ⟨0, events⟩]
    let moves := List.flatten [[.set (.width 2), .set (.height 2), .set .requestReset],
      [.begin, .console, .console, .console], arrive [⟨0, 0, .on, 0⟩, ⟨1, 1, .on, 2000⟩], engine 13,
      [.stop, .begin, .console], arrive [⟨0, 0, .on, 4000⟩], engine 9,
      [.console, .console], arrive [⟨0, 0, .on, 6000⟩, ⟨0, 0, .on, 8000⟩, ⟨1, 1, .on, 10000⟩], engine 11]
    let t := (start .standard (.initial 4)).run ⟨"r"⟩ moves
    let numbers := (t.filings.filter (·.run = 2)).map Filing.number
    ¬numbers.Nodup ∧ numbers.head? ≠ some 1 := by
  decide +kernel

end EventCamera.Logbook
