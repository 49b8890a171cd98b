import EventCamera.Proofs.Engine.Steps
import EventCamera.Proofs.Recording.Filing
/-!
# What a run leaves on disk

A run is recorded into an empty directory, from the reset of its numbers on. Whatever batches come, and
whatever changes besides the directory: the directory holds one file per recorded window and nothing else
(`Tape.recorded_run`). The `i`-th file has number `i`, so windows of different sessions that start at the same
sensor time do not meet under one name.

It is one fact about a closed window (`Filed.finishWindow`), lifted to events, batches and runs.
-/

namespace EventCamera

/-! ## Windows of a run -/

/-- The windows were filed in the directory at `loc` as the windows of a run that began on the tree `tree₀`, and
counted since the counters were `counters₀`. -/
structure Filed (dir : Path) (loc : Location) (tree₀ : FileTree) (counters₀ : Counters) (recorded : List Window)
    (state : Recorder × Shared) : Prop where
  dir : state.2.control.recordingDir = some dir
  files : state.2.files = tree₀.filedAll loc recorded
  written : state.1.written = .ofNat recorded.length
  counted : state.2.counters.recorded = counters₀.recorded + .ofNat recorded.length
  failures : state.2.counters.failures = counters₀.failures

namespace Filed

variable {dir : Path} {loc : Location} {tree₀ : FileTree} {counters₀ : Counters} {recorded : List Window}
  {state : Recorder × Shared}

/-- A closed window is filed if it opened while recording. -/
theorem finishWindow (htree : tree₀.Takes dir loc) (h : Filed dir loc tree₀ counters₀ recorded state) (w : Window) :
    Filed dir loc tree₀ counters₀ (recorded ++ [w].filter (·.recording)) (Pipeline.finishWindow state w) := by
  obtain ⟨recorder, s⟩ := state
  have hdir := h.dir
  have htakes : s.files.Takes dir loc := by
    rw [h.files]
    exact htree.filedAll recorded
  rw [Pipeline.finishWindow_eq]
  rcases Pipeline.recordWindow_cases w recorder s with ⟨hr, hw⟩ | ⟨-, hnone, -⟩ |
    ⟨dir', path, recorder', files, hr, hdir', hwrite, hw⟩ | ⟨dir', cause, recorder', files, hr, hdir', hwrite, hw⟩
  · -- It is not recorded.
    rw [hw, List.filter_cons_of_neg (by simp [hr]), List.filter_nil, List.append_nil]
    exact ⟨h.dir, h.files, h.written, h.counted, h.failures⟩
  · rw [hdir] at hnone
    cases hnone
  · -- It is written under the next number.
    rw [hdir] at hdir'
    cases hdir'
    rw [htakes.write recorder w, Prod.mk.injEq, Prod.mk.injEq] at hwrite
    obtain ⟨-, rfl, rfl⟩ := hwrite
    have hnumber : recorder.written + 1 = .ofNat (recorded.length + 1) := by
      rw [h.written, UInt64.ofNat_add]
      rfl
    rw [hw, List.filter_cons_of_pos hr, List.filter_nil]
    refine ⟨hdir, ?_, ?_, ?_, h.failures⟩
    · rw [FileTree.filedAll_concat, ← h.files, ← hnumber]
      rfl
    · rw [List.length_append, List.length_singleton]
      exact hnumber
    · rw [List.length_append, List.length_singleton, UInt64.ofNat_add, ← UInt64.add_assoc, ← h.counted]
      rfl
  · -- Writing does not fail.
    rw [hdir] at hdir'
    cases hdir'
    rw [htakes.write recorder w, Prod.mk.injEq] at hwrite
    cases hwrite.1

theorem foldl_finishWindow (htree : tree₀.Takes dir loc) (h : Filed dir loc tree₀ counters₀ recorded state)
    (closed : List Window) :
    Filed dir loc tree₀ counters₀ (recorded ++ closed.filter (·.recording))
      (closed.foldl Pipeline.finishWindow state) := by
  induction closed generalizing recorded state with
  | nil => simpa using h
  | cons w rest ih =>
    have hrest := ih (h.finishWindow htree w)
    rw [List.append_assoc, ← List.filter_append] at hrest
    exact hrest

end Filed

/-- Whether the write leaves the run as it is: its directory and its numbers. -/
def Control.Write.sparesRun : Write → Bool
  | .recordingDir _ | .requestRecordingReset => false
  | _ => true

namespace Pipeline

/-- The windows that the events close. -/
def closedIn : List Event → Pipeline → List Window
  | [], _ => []
  | e :: rest, p =>
    (p.engine.manager.process e p.shared.control.recording).closed.toList ++ closedIn rest (p.feed e)

/-- The windows that processing a batch closes. -/
def closedBy (b : Batch) (p : Pipeline) : List Window :=
  let p := p.applyResets
  if b.session = p.shared.control.session then
    closedIn b.events (p.change (·.count (.addEvents b.size.toUInt64)))
  else []

/-- What finishing a window works on. -/
def books (p : Pipeline) : Recorder × Shared := (p.engine.recorder, p.shared)

theorem control_foldl_feed (events : List Event) (p : Pipeline) :
    (events.foldl feed p).shared.control = p.shared.control := by
  induction events generalizing p with
  | nil => rfl
  | cons e rest ih => rw [List.foldl_cons, ih, control_feed]

end Pipeline

namespace Filed

variable {dir : Path} {loc : Location} {tree₀ : FileTree} {counters₀ : Counters} {recorded : List Window}
  {p : Pipeline}

theorem feed (htree : tree₀.Takes dir loc) (h : Filed dir loc tree₀ counters₀ recorded p.books) (e : Event) :
    Filed dir loc tree₀ counters₀ (recorded ++
      (p.engine.manager.process e p.shared.control.recording).closed.toList.filter (·.recording)) (p.feed e).books := by
  have hfinished := h.foldl_finishWindow htree
    (p.engine.manager.process e p.shared.control.recording).closed.toList
  rw [Pipeline.feed_eq]
  unfold Pipeline.books at hfinished ⊢
  dsimp only
  cases (p.engine.manager.process e p.shared.control.recording).outcome <;>
    exact ⟨hfinished.dir, hfinished.files, hfinished.written, hfinished.counted, hfinished.failures⟩

theorem foldl_feed (htree : tree₀.Takes dir loc) (h : Filed dir loc tree₀ counters₀ recorded p.books)
    (events : List Event) :
    Filed dir loc tree₀ counters₀ (recorded ++ (p.closedIn events).filter (·.recording))
      (events.foldl Pipeline.feed p).books := by
  induction events generalizing p recorded with
  | nil => simpa [Pipeline.closedIn] using h
  | cons e rest ih =>
    have hrest := ih (h.feed htree e)
    rw [List.append_assoc, ← List.filter_append] at hrest
    exact hrest

/-- Resets leave the books as they are if no new numbers were requested. -/
theorem applyResets (h : Filed dir loc tree₀ counters₀ recorded p.books)
    (hreset : p.shared.control.recordingResetRequested = false) :
    Filed dir loc tree₀ counters₀ recorded p.applyResets.books := by
  rw [Pipeline.applyResets_eq]
  dsimp only
  rw [hreset]
  exact ⟨h.dir, h.files, h.written, h.counted, h.failures⟩

/-- A batch files the windows that it closes. The numbers begin anew before it if that was requested. -/
theorem processBatch (htree : tree₀.Takes dir loc) (h : Filed dir loc tree₀ counters₀ recorded p.applyResets.books)
    (b : Batch) :
    Filed dir loc tree₀ counters₀ (recorded ++ (p.closedBy b).filter (·.recording))
      (p.processBatch b).applyResets.books := by
  have htaken : p.applyResets.shared.control.recordingResetRequested = false := by rw [Pipeline.applyResets_eq]
  unfold Pipeline.processBatch Pipeline.closedBy
  dsimp only
  by_cases hs : b.session = p.applyResets.shared.control.session
  · rw [if_pos hs, if_pos hs]
    have hcounted : Filed dir loc tree₀ counters₀ recorded
        (p.applyResets.change (·.count (.addEvents b.size.toUInt64))).books :=
      ⟨h.dir, h.files, h.written, h.counted, h.failures⟩
    refine (hcounted.foldl_feed htree b.events).applyResets ?_
    rw [Pipeline.control_foldl_feed]
    exact htaken
  · rw [if_neg hs, if_neg hs, List.filter_nil, List.append_nil]
    have hdropped : Filed dir loc tree₀ counters₀ recorded (p.applyResets.change (·.count (.addDropped 1))).books :=
      ⟨h.dir, h.files, h.written, h.counted, h.failures⟩
    exact hdropped.applyResets htaken

/-- A write that has nothing to do with the run leaves its books as they are. -/
theorem write (h : Filed dir loc tree₀ counters₀ recorded p.applyResets.books) {w : Control.Write}
    (hw : w.sparesRun = true) : Filed dir loc tree₀ counters₀ recorded (p.change (·.write [w])).applyResets.books := by
  rw [Pipeline.applyResets_eq] at h ⊢
  cases w with
  | recordingDir dir => cases hw
  | requestRecordingReset => cases hw
  | _ => exact ⟨h.dir, h.files, h.written, h.counted, h.failures⟩

end Filed

/-! ## Runs -/

/-- What can happen while a run is recorded. -/
inductive TapeMove where
  | batch (b : Batch)
  | set (w : Control.Write)
  deriving DecidableEq, Repr

/-- The engine, and the windows closed so far. -/
structure Tape where
  pipeline : Pipeline
  closed : List Window

namespace Tape

def start (p : Pipeline) : Tape := ⟨p, []⟩

def act (t : Tape) : TapeMove → Tape
  | .batch b => ⟨t.pipeline.processBatch b, t.closed ++ t.pipeline.closedBy b⟩
  | .set w => if w.sparesRun then { t with pipeline := t.pipeline.change (·.write [w]) } else t

def run (t : Tape) (moves : List TapeMove) : Tape := moves.foldl act t

/-- The windows that opened while recording. -/
def recorded (t : Tape) : List Window := t.closed.filter (·.recording)

/-- The windows of the tape are filed, or will be when the engine has taken its resets. -/
def InOrder (dir : Path) (loc : Location) (tree₀ : FileTree) (counters₀ : Counters) (t : Tape) : Prop :=
  Filed dir loc tree₀ counters₀ t.recorded t.pipeline.applyResets.books

variable {dir : Path} {loc : Location} {tree₀ : FileTree} {counters₀ : Counters} {t : Tape}

theorem InOrder.act (htree : tree₀.Takes dir loc) (h : t.InOrder dir loc tree₀ counters₀) (m : TapeMove) :
    (t.act m).InOrder dir loc tree₀ counters₀ := by
  cases m with
  | batch b =>
    have hbatch := h.processBatch htree b
    rw [recorded, ← List.filter_append] at hbatch
    exact hbatch
  | set w =>
    unfold Tape.act
    dsimp only
    split
    · next hw => exact h.write hw
    · exact h

theorem InOrder.run (htree : tree₀.Takes dir loc) (h : t.InOrder dir loc tree₀ counters₀) (moves : List TapeMove) :
    (t.run moves).InOrder dir loc tree₀ counters₀ := by
  induction moves generalizing t with
  | nil => exact h
  | cons m rest ih => exact ih (h.act htree m)

/-- A recording that is about to begin. -/
theorem inOrder_start {p : Pipeline} (hdir : p.shared.control.recordingDir = some dir)
    (hreset : p.shared.control.recordingResetRequested = true) :
    (start p).InOrder dir loc p.shared.files p.shared.counters := by
  unfold InOrder start
  rw [Pipeline.applyResets_eq]
  dsimp only
  rw [hreset]
  refine ⟨hdir, rfl, rfl, ?_, rfl⟩
  exact (UInt64.add_zero _).symm

/-- A run on disk. A recording begins in an empty directory that takes files, with a reset of the numbers pending.
After any batches and any changes that leave the directory alone, every window that opened while recording has
been counted and none has failed. The directory holds one file for each of them and nothing else: the `i`-th is
named by number `i` and the start of its window, and has a line for each event the window kept, from which the
coordinates can be read back. -/
theorem recorded_run {p : Pipeline} {dir : Path} (hdir : p.shared.control.recordingDir = some dir)
    (hreset : p.shared.control.recordingResetRequested = true) (hexists : p.shared.files.isDirectory dir = true)
    (hempty : p.shared.files.below dir = []) (hwritable : p.shared.files.Writable dir) (moves : List TapeMove) :
    let t := (start p).run moves
    let content (w : Window) : Bytes := Bytes.ofChars (w.events.toList.flatMap Event.line)
    let files := (t.recorded.zipIdx 1).map fun (w, i) => ([windowFileName (.ofNat i) w.start], Entry.file (content w))
    t.pipeline.shared.counters.recorded = p.shared.counters.recorded + .ofNat t.recorded.length ∧
    t.pipeline.shared.counters.failures = p.shared.counters.failures ∧
    (t.recorded.length < 2 ^ 64 →
      (t.pipeline.shared.files.below dir).Perm files ∧ (files.map Prod.fst).Nodup) ∧
    ∀ w ∈ t.recorded, (Bytes.text? (content w)).bind (readCoordinates? ·.toList) =
      some (w.events.toList.map fun e => (e.x.toNat, e.y.toNat)) := by
  intro t content files
  obtain ⟨loc, hleads⟩ := FileTree.isDirectory_iff.1 hexists
  have htree := FileTree.takes_of_writable hleads hempty hwritable
  have hfiled : t.InOrder dir loc p.shared.files p.shared.counters := (inOrder_start hdir hreset).run htree moves
  unfold InOrder at hfiled
  rw [Pipeline.applyResets_eq] at hfiled
  have hfiles : files = (runFiles t.recorded).map fun file => ([file.1], file.2) := by
    rw [runFiles, List.map_map]
    rfl
  refine ⟨hfiled.counted, hfiled.failures, ?_, ?_⟩
  · intro hlength
    have hbelow : t.pipeline.shared.files.below dir =
        (runFiles t.recorded).reverse.map fun file => ([file.1], file.2) := by
      rw [← FileTree.below_filedAll htree hempty hlength, ← hfiled.files]
      rfl
    refine ⟨?_, ?_⟩
    · rw [hbelow, hfiles]
      exact (List.reverse_perm _).map _
    · have hnames := nodup_runFiles hlength
      have hsingle : Function.Injective fun name : String => [name] := fun _ _ h => (List.cons.inj h).1
      have hmap := hnames.map hsingle
      rw [List.map_map] at hmap
      rw [hfiles, List.map_map]
      exact hmap
  · intro w _
    have hstored : Bytes.text? (content w) = some (String.ofList w.text) := by
      rw [← Bytes.text?_ofText, Bytes.ofText_ofList]
      rfl
    rw [hstored, Option.bind_some, String.toList_ofList]
    exact w.readCoordinates?_text

/-- Two sessions of one run. In both a window opens at zero while recording and is closed, so two files of the run
tell the same start. -/
theorem recorded_run_two_sessions :
    let dir : Path := ⟨"run"⟩
    let c : Control := { Control.initial with
      recording := true, recordingResetRequested := true, width := 2, height := 2, recordingDir := some dir }
    let files : FileTree := ⟨[(["run"], .directory)], []⟩
    let p : Pipeline := .start .standard { Shared.initial 1 with control := c, files }
    let moves : List TapeMove := [.batch ⟨0, [⟨0, 0, .on, 0⟩, ⟨1, 1, .on, 2000⟩]⟩, .set .beginSession,
      .set .requestReset, .batch ⟨0, [⟨1, 1, .on, 9000⟩]⟩, .batch ⟨1, [⟨1, 0, .off, 0⟩, ⟨9, 9, .on, 3000⟩]⟩]
    let t := (start p).run moves
    (files.isDirectory dir = true ∧ files.below dir = [] ∧ files.Writable dir) ∧
    (t.pipeline.shared.files.below dir).Perm
      [(["frame_000001_t0_0us.txt"], .file (Bytes.ofText "0 0\n")),
        (["frame_000002_t0_0us.txt"], .file (Bytes.ofText "1 0\n"))] ∧
    t.pipeline.shared.counters.recorded = 2 := by
  intro dir c files p moves t
  have hexists : files.isDirectory dir = true := by decide +kernel
  have hempty : files.below dir = [] := by decide +kernel
  have hwritable : files.Writable dir := by
    obtain ⟨loc, hleads⟩ := FileTree.isDirectory_iff.1 hexists
    refine FileTree.writable_of_room hleads (by decide +kernel) ?_
    intro name hname
    exact FileTree.not_below_of_empty hleads hempty (FileTree.mem_of_lookup hname) (by simp) rfl
  have hfiles : ((t.recorded.zipIdx 1).map fun (w, i) => ([windowFileName (.ofNat i) w.start],
      Entry.file (Bytes.ofChars (w.events.toList.flatMap Event.line)))) =
        [(["frame_000001_t0_0us.txt"], .file (Bytes.ofText "0 0\n")),
          (["frame_000002_t0_0us.txt"], .file (Bytes.ofText "1 0\n"))] := by
    decide +kernel
  have hlength : t.recorded.length = 2 := by simpa using congrArg List.length hfiles
  obtain ⟨hcounted, -, hbelow, -⟩ := recorded_run (p := p) rfl rfl hexists hempty hwritable moves
  refine ⟨⟨hexists, hempty, hwritable⟩, ?_, ?_⟩
  · rw [← hfiles]
    exact (hbelow (by rw [hlength]; decide)).1
  · rw [hcounted, hlength]
    rfl

end Tape

end EventCamera
