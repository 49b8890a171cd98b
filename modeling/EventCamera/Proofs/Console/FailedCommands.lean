import EventCamera.Proofs.Console.Sitting
import EventCamera.Proofs.Files.Failures
/-!
# What a failed command changes

`failed_changes_nothing`: of all that commands can change, a command that fails leaves everything as it was, except that
a camera which was opened and does not start has ended the session before it. What a write that failed may do to a
device is up to the device, so the statement is about whatever of its state such a write leaves alone.

In the file tree a failed command may leave directories on the way to where it failed. A capture can do more:
`lost_sibling` has one that fails and takes a file with it.
-/

namespace EventCamera

namespace Desk

variable {δ α : Type}

/-- What commands can change is as before. `view` is what is looked at of a bias facility. -/
structure Spared (view : δ → α) (d d' : Desk δ) : Prop where
  control : d'.shared.control = d.shared.control
  queue : d'.shared.queue = d.shared.queue
  counters : d'.shared.counters = d.shared.counters
  latest : d'.shared.latest = d.shared.latest
  source : d'.interpreter.source.map (·.mapBiases view) = d.interpreter.source.map (·.mapBiases view)
  selected : d'.interpreter.selected = d.interpreter.selected
  steps : d'.interpreter.steps = d.interpreter.steps
  presets : d'.interpreter.presets = d.interpreter.presets
  listOnOpen : d'.interpreter.listOnOpen = d.interpreter.listOnOpen
  outputRoot : d'.interpreter.outputRoot = d.interpreter.outputRoot
  subscriptions : d'.interpreter.subscriptions = d.interpreter.subscriptions

/-- The directory that a command makes, with those that lead to it. -/
def destination? (c : Command) (d : Desk δ) : Option Path :=
  match c with
  | .recordingStart => some d.interpreter.outputRoot
  | .capture => some (capturesDirectory d.interpreter.outputRoot)
  | _ => none

/-- What a command that failed may have changed in the file tree, at each location. -/
def Traces (c : Command) (d d' : Desk δ) : Prop :=
  ∀ loc,
    d'.shared.files.lookup loc = d.shared.files.lookup loc ∨
    -- It made a directory where nothing was, on the way to its destination.
    (d.shared.files.lookup loc = none ∧
      ∃ p q, d.destination? c = some p ∧ p.Within q ∧ d'.shared.files.Leads q loc) ∨
    -- A capture took a file that stood in the place of its temporary sibling.
    (c = .capture ∧ (∃ content, d.shared.files.lookup loc = some (.file content)) ∧
      d'.shared.files.lookup loc = none ∧
      d'.shared.files.locate
        (FileTree.temporary (captureTarget d.interpreter.outputRoot d.shared.clock.read.1)) = .ok loc)

theorem Spared.refl (view : δ → α) (d : Desk δ) : Spared view d d :=
  ⟨rfl, rfl, rfl, rfl, rfl, rfl, rfl, rfl, rfl, rfl, rfl⟩

/-- A device takes no value, and what is looked at of it stays. -/
theorem spared_putFacility {view : δ → α} {d : Desk δ} {biases biases' : δ} (hfacility : d.facility = .ok biases)
    (hview : view biases' = view biases) : Spared view d (d.putFacility biases') := by
  obtain ⟨-, source, hsource, hbiases⟩ := facility_eq_ok hfacility
  refine ⟨rfl, rfl, rfl, rfl, ?_, rfl, rfl, rfl, rfl, rfl, rfl⟩
  simp [putFacility, hsource, Source.mapBiases, hbiases, hview]

theorem traces_of_files {c : Command} {d d' : Desk δ} (h : d'.shared.files = d.shared.files) : Traces c d d' := by
  intro loc
  rw [h]
  exact .inl rfl

theorem traces_of_paves {c : Command} {d d' : Desk δ} {p : Path} (hp : d.destination? c = some p)
    (h : FileTree.Paves p d.shared.files d'.shared.files) : Traces c d d' := by
  intro loc
  rcases h.entry loc with hsame | ⟨hnone, q, hq, hleads⟩
  · exact .inl hsame
  · exact .inr (.inl ⟨hnone, p, q, hp, hq, hleads⟩)

theorem traces_of_capture {d d' : Desk δ} {mid : FileTree}
    (hpaves : FileTree.Paves (capturesDirectory d.interpreter.outputRoot) d.shared.files mid)
    (hloses : FileTree.Loses (FileTree.temporary (captureTarget d.interpreter.outputRoot d.shared.clock.read.1)) mid
      d'.shared.files) : Traces .capture d d' := by
  intro loc
  rcases hloses.entry loc with hsame | ⟨⟨content, hfile⟩, hgone, hlocate⟩
  · rcases hpaves.entry loc with hsame' | ⟨hnone, q, hq, hleads⟩
    · exact .inl (hsame.trans hsame')
    · exact .inr (.inl ⟨hnone, _, q, rfl, hq, hleads.keeps hloses.keeps⟩)
  · rcases hpaves.entry loc with hsame' | ⟨-, q, -, hleads⟩
    · exact .inr (.inr ⟨rfl, ⟨content, hsame' ▸ hfile⟩, hgone, hlocate⟩)
    · -- A directory that was just made is no file.
      rw [hleads.directory] at hfile
      cases hfile

variable [BiasFacility δ]

/-- Of the effects of a command those with an error change nothing, unless a camera was opened. -/
theorem Effect.spared {view : δ → α}
    (hview : ∀ (b b' : δ) (name : String) (value : BiasValue) (e : BiasError),
      BiasFacility.set b name value = (.error e, b') → view b' = view b)
    {d d' : Desk δ} {c : Command} {e : CommandError} (he : d.Effect c (.error e) d') (hopens : d.opens c = false) :
    Spared view d d' ∧ Traces c d d' := by
  cases he with
  | refused => exact ⟨.refl view d, traces_of_files rfl⟩
  | unopened => exact ⟨⟨rfl, rfl, rfl, rfl, rfl, rfl, rfl, rfl, rfl, rfl, rfl⟩, traces_of_files rfl⟩
  | unstarted hoff hopen =>
    rw [opens_iff.2 ⟨rfl, hoff, _, _, hopen⟩] at hopens
    cases hopens
  | unbegun hclock hcreate =>
    refine ⟨⟨rfl, rfl, rfl, rfl, rfl, rfl, rfl, rfl, rfl, rfl, rfl⟩, ?_⟩
    exact traces_of_paves rfl (paves_createRun hcreate)
  | uncaptured hlatest hclock hsave =>
    refine ⟨⟨rfl, rfl, rfl, rfl, rfl, rfl, rfl, rfl, rfl, rfl, rfl⟩, ?_⟩
    obtain ⟨mid, hpaves, hloses⟩ := saveCapture_error hsave
    refine traces_of_capture hpaves ?_
    rw [hclock]
    exact hloses
  | unwritten hc hfacility hset =>
    exact ⟨spared_putFacility hfacility (hview _ _ _ _ _ hset), traces_of_files rfl⟩

end Desk

namespace Sitting

variable {δ α : Type} [BiasFacility δ]

/-- Whatever was done before, a command that fails changes nothing: the control state, the queue, the camera, the
selected bias and the step, the settings, and what failed writes leave alone of a device are as before, and the file
tree is but for `Desk.Traces`. If it opened a camera, the camera did not start; then acquisition is off, no camera is
held and a window reset is pending. -/
theorem failed_changes_nothing (view : δ → α)
    (hview : ∀ (b b' : δ) (name : String) (value : BiasValue) (e : BiasError),
      BiasFacility.set b name value = (.error e, b') → view b' = view b)
    (s : Shared) (i : Interpreter δ) (moves : List SittingMove) (c : Command) (e : CommandError) (d' : Desk δ)
    (hfailed : ((start s i).run moves).desk.handle c = (.error e, d')) :
    let d := ((start s i).run moves).desk
    (d.opens c = false → Desk.Spared view d d' ∧ Desk.Traces c d d') ∧
    (d.opens c = true → d'.shared.control.acquisition = false ∧ d'.interpreter.source = none ∧
      d'.shared.control.resetRequested = true) := by
  intro d
  have h : ((start s i).run moves).Consistent := (consistent_start s i).run moves
  have he : d.Effect c (.error e) d' := by
    have he := Desk.effect_handle c d
    rw [hfailed] at he
    exact he
  constructor
  · intro hopens
    exact he.spared hview hopens
  · intro hopens
    obtain ⟨hreset, hunstarted⟩ := Desk.effect_of_opens hopens he
    obtain ⟨hoff, hsource⟩ := hunstarted e rfl
    obtain ⟨-, hbefore, -⟩ := Desk.opens_iff.1 hopens
    exact ⟨hoff, hsource.trans (h.source_eq_none hbefore), hreset⟩

/-- A device in memory that takes no values keeps those it has. -/
theorem failed_changes_nothing_memory :
    let info : BiasInfo := ⟨⟨0, 9⟩, ⟨0, 9⟩, true, "", ""⟩
    let biases : MemoryBiases := { MemoryBiases.empty.insert "gain" 0 info with failWrites := true }
    let camera : Source MemoryBiases := ⟨"camera", ⟨2, 1⟩, some biases, none, false⟩
    let d := ((start (.initial 4) (.new ⟨["camera"], fun _ _ => .ok camera, 0⟩ ⟨"out"⟩)).run
      [.handle .acquisitionOn]).desk
    (d.handle (.setBias "gain" 3)).1 = .error (.bias (.writeFailed "gain" 3)) ∧
      Desk.Spared MemoryBiases.entries d (d.handle (.setBias "gain" 3)).2 := by
  intro info biases camera d
  have hfailed : d.handle (.setBias "gain" 3) =
      (.error (.bias (.writeFailed "gain" 3)), (d.handle (.setBias "gain" 3)).2) := rfl
  have h := failed_changes_nothing MemoryBiases.entries (fun _ _ _ _ _ => MemoryBiases.entries_of_set_error)
    (.initial 4) (.new ⟨["camera"], fun _ _ => .ok camera, 0⟩ ⟨"out"⟩) [.handle .acquisitionOn] _ _ _ hfailed
  exact ⟨rfl, (h.1 rfl).1⟩

/-- A directory has the name of a capture, and a file that of its temporary sibling. The capture fails, and the file is
gone. -/
theorem lost_sibling :
    let files : FileTree := ⟨[(["out"], .directory), (["out", "captures"], .directory),
      (["out", "captures", "capture_19700101_000000_000.pgm"], .directory),
      (["out", "captures", "capture_19700101_000000_000.tmp"], .file [120])], []⟩
    let s := { Shared.initial 4 with files, latest := some default }
    let d := ((start s (.new (.none : Provider MemoryBiases) ⟨"out"⟩)).run []).desk
    (d.handle .capture).1.isOk = false ∧
      d.shared.files.lookup ["out", "captures", "capture_19700101_000000_000.tmp"] = some (.file [120]) ∧
      (d.handle .capture).2.shared.files.lookup ["out", "captures", "capture_19700101_000000_000.tmp"] = none := by
  decide +kernel

end Sitting

end EventCamera
