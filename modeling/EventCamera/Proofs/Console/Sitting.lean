import EventCamera.Proofs.Console.Effects
import Mathlib
/-!
# A sitting at the console

Commands are carried out one after the other, beginning with a new interpreter and a control state nobody has written
to. Between two commands the camera, the engine and a signal may do whatever they do, and the console may be shut down.

`consistent`: after every command and every shutdown acquisition is on exactly while one started camera is held, a
recording goes into the directory of the last run that was begun, the selected bias is one that the camera lists, and
the session is the number of cameras opened. `Consistent.record` and `Listed.effect` go over the effects of a command.
-/

namespace EventCamera

/-- A recording begins in a run directory, or ends. -/
inductive Take where
  | began (dir : Path)
  | ended
  deriving DecidableEq, Repr

def Take.isBeginning : Take → Bool
  | began _ => true
  | ended => false

namespace Desk

variable {δ : Type}

/-- What a command that gave the reply did to a recording. -/
def take? (c : Command) (reply : Reply) (d : Desk δ) : Option Take :=
  match c, reply with
  | .recordingStart, .ok _ =>
    match createRun d.interpreter.outputRoot d.shared.clock.read.1 d.shared.files with
    | (.ok dir, _) => some (.began dir)
    | (.error _, _) => none
  | .recordingStop, .ok _ => some .ended
  | _, _ => none

/-- What others do between two commands. Of what the console writes they only take requests and stop the program. -/
def meanwhile (s : Shared) (d : Desk δ) : Desk δ :=
  let c := d.shared.control
  { d with
    shared := { s with
      control := { c with
        running := c.running && s.control.running
        resetRequested := c.resetRequested && s.control.resetRequested
        recordingResetRequested := c.recordingResetRequested && s.control.recordingResetRequested } } }

end Desk

inductive SittingMove where
  | handle (c : Command)
  | shutdown
  | meanwhile (s : Shared)

/-- The desk, and what has been done at it. -/
structure Sitting (δ : Type) where
  desk : Desk δ
  /-- How many commands have opened a camera. -/
  opened : Nat
  /-- How many cameras were started. -/
  started : Nat
  /-- How many cameras were let go after they had been started. -/
  stopped : Nat
  takes : List Take

namespace Sitting

variable {δ : Type}

/-- A new interpreter and a new control state. The provider, the settings and the rest of the shared state are as they
may be. -/
def start (s : Shared) (i : Interpreter δ) : Sitting δ where
  desk := ⟨{ s with control := .initial },
    { i with source := none, selected := none, subscriptions := [] }⟩
  opened := 0
  started := 0
  stopped := 0
  takes := []

/-- How many cameras were stopped when the desk is left so. -/
def stoppedAfter (t : Sitting δ) (desk : Desk δ) : Nat :=
  if t.desk.interpreter.source.isSome && desk.interpreter.source.isNone then t.stopped + 1 else t.stopped

/-- A command was carried out. -/
def record (t : Sitting δ) (c : Command) (reply : Reply) (desk : Desk δ) : Sitting δ where
  desk
  opened := if t.desk.opens c then t.opened + 1 else t.opened
  started := if t.desk.opens c && reply.isOk then t.started + 1 else t.started
  stopped := t.stoppedAfter desk
  takes := t.takes ++ (t.desk.take? c reply).toList

def act [BiasFacility δ] (t : Sitting δ) : SittingMove → Sitting δ
  | .handle c => t.record c (t.desk.handle c).1 (t.desk.handle c).2
  | .shutdown => { t with desk := t.desk.shutdown, stopped := t.stoppedAfter t.desk.shutdown }
  | .meanwhile s => { t with desk := t.desk.meanwhile s }

def run [BiasFacility δ] (t : Sitting δ) (moves : List SittingMove) : Sitting δ := moves.foldl act t

end Sitting

namespace Sitting

variable {δ : Type} {t : Sitting δ}

/-! ## The camera and the recordings -/

/-- What holds after every command. -/
structure Consistent (t : Sitting δ) : Prop where
  camera : t.desk.shared.control.acquisition = t.desk.interpreter.source.isSome
  started : t.started = t.stopped + t.desk.interpreter.source.toList.length
  running : ∀ source, t.desk.interpreter.source = some source → source.running = true
  takes : t.takes.IsChain fun a b => a.isBeginning ≠ b.isBeginning
  recording : t.desk.shared.control.recording = true →
    ∃ dir, t.takes.getLast? = some (.began dir) ∧ t.desk.shared.control.recordingDir = some dir
  idle : t.desk.shared.control.recording = false → ∀ dir, t.takes.getLast? ≠ some (.began dir)
  session : t.desk.shared.control.session = UInt64.ofNat t.opened

theorem consistent_start (s : Shared) (i : Interpreter δ) : (start s i).Consistent where
  camera := rfl
  started := rfl
  running := nofun
  takes := .nil
  recording := nofun
  idle := nofun
  session := rfl

/-- Without acquisition no camera is held. -/
theorem Consistent.source_eq_none (h : t.Consistent) (hoff : t.desk.shared.control.acquisition = false) :
    t.desk.interpreter.source = none := by
  have hcamera := h.camera
  rw [hoff] at hcamera
  simpa using hcamera.symm

/-- The flags and the session stay, and a camera that is held goes on as it does. -/
structure Leaves (d d' : Desk δ) : Prop where
  acquisition : d'.shared.control.acquisition = d.shared.control.acquisition
  recording : d'.shared.control.recording = d.shared.control.recording
  recordingDir : d'.shared.control.recordingDir = d.shared.control.recordingDir
  session : d'.shared.control.session = d.shared.control.session
  source : d'.interpreter.source.map Source.running = d.interpreter.source.map Source.running

theorem Leaves.isSome_source {d d' : Desk δ} (h : Leaves d d') :
    d'.interpreter.source.isSome = d.interpreter.source.isSome := by
  simpa using congrArg Option.isSome h.source

theorem Consistent.leaves {d : Desk δ} (h : t.Consistent) (hd : Leaves t.desk d) :
    Consistent { t with desk := d } := by
  refine ⟨?_, ?_, ?_, h.takes, ?_, ?_, ?_⟩
  · rw [hd.acquisition, hd.isSome_source]
    exact h.camera
  · have hlength := congrArg (·.toList.length) hd.source
    simp only [Option.toList_map, List.length_map] at hlength
    rw [hlength]
    exact h.started
  · intro source hs
    have hsource := hd.source
    rw [hs, Option.map_some] at hsource
    obtain ⟨source', hs', hrunning⟩ := Option.map_eq_some_iff.1 hsource.symm
    rw [← hrunning]
    exact h.running source' hs'
  · rw [hd.recording, hd.recordingDir]
    exact h.recording
  · rw [hd.recording]
    exact h.idle
  · rw [hd.session]
    exact h.session

theorem leaves_putFacility (d : Desk δ) (biases : δ) : Leaves d (d.putFacility biases) := by
  refine ⟨rfl, rfl, rfl, rfl, ?_⟩
  show (d.interpreter.source.map _).map Source.running = _
  rw [Option.map_map]
  rfl

theorem take?_of_not_switches {d : Desk δ} {c : Command} (hc : c.switches = false) (reply : Reply) :
    d.take? c reply = none := by
  cases c <;> first | rfl | cases hc

theorem take?_error (d : Desk δ) (c : Command) (e : CommandError) : d.take? c (.error e) = none := by
  cases c <;> rfl

/-- A command that opens no camera and lets none go, and neither begins nor ends a recording. -/
theorem Consistent.unaffected {d : Desk δ} {c : Command} {reply : Reply} (h : t.Consistent)
    (hopens : t.desk.opens c = false) (htake : t.desk.take? c reply = none) (hd : Leaves t.desk d) :
    (t.record c reply d).Consistent := by
  have hstopped : t.stoppedAfter d = t.stopped := by
    rw [stoppedAfter, ← Option.not_isSome, hd.isSome_source]
    cases t.desk.interpreter.source <;> rfl
  have hrecord : t.record c reply d = { t with desk := d } := by simp [Sitting.record, hopens, hstopped, htake]
  rw [hrecord]
  exact h.leaves hd

theorem Consistent.unaffected_of_not_switches {d : Desk δ} {c : Command} {reply : Reply} (h : t.Consistent)
    (hc : c.switches = false) (hd : Leaves t.desk d) : (t.record c reply d).Consistent :=
  h.unaffected (Desk.opens_of_not_switches hc) (take?_of_not_switches hc reply) hd

/-- A new session begins, and the camera that was opened for it is held or not. -/
theorem Consistent.opened {g : Geometry} {camera : Option (Source δ)} {d : Desk δ} {reply : Reply}
    (h : t.Consistent) (hoff : t.desk.shared.control.acquisition = false)
    (hopens : t.desk.opens .acquisitionOn = true)
    (hcontrol : ∃ reset, d.shared.control = { t.desk.shared.control with
      width := g.width, height := g.height, session := t.desk.shared.control.session + 1
      acquisition := camera.isSome, resetRequested := reset })
    (hsource : d.interpreter.source = camera) (hrunning : ∀ source, camera = some source → source.running = true)
    (hreply : reply.isOk = camera.isSome) : (t.record .acquisitionOn reply d).Consistent := by
  obtain ⟨reset, hcontrol⟩ := hcontrol
  have hnone := h.source_eq_none hoff
  have hstarted : t.started = t.stopped := by simpa [hnone] using h.started
  have hrecord : t.record .acquisitionOn reply d =
      ⟨d, t.opened + 1, if camera.isSome then t.started + 1 else t.started, t.stopped, t.takes⟩ := by
    simp [Sitting.record, hopens, hreply, stoppedAfter, hnone, Desk.take?]
  rw [hrecord]
  refine ⟨?_, ?_, ?_, h.takes, ?_, ?_, ?_⟩
  · rw [hcontrol, hsource]
  · rw [hsource, hstarted]
    cases camera <;> rfl
  · rw [hsource]
    exact hrunning
  · rw [hcontrol]
    exact h.recording
  · rw [hcontrol]
    exact h.idle
  · rw [hcontrol]
    show t.desk.shared.control.session + 1 = _
    rw [h.session, UInt64.ofNat_add]
    rfl

/-- The camera is let go, if one is held. -/
theorem Consistent.released {d : Desk δ} (h : t.Consistent) (hacquisition : d.shared.control.acquisition = false)
    (hrecording : d.shared.control.recording = t.desk.shared.control.recording)
    (hdir : d.shared.control.recordingDir = t.desk.shared.control.recordingDir)
    (hsession : d.shared.control.session = t.desk.shared.control.session) (hsource : d.interpreter.source = none) :
    Consistent { t with desk := d, stopped := t.stoppedAfter d } := by
  refine ⟨?_, ?_, ?_, h.takes, ?_, ?_, ?_⟩
  · rw [hacquisition, hsource]
    rfl
  · have hstarted := h.started
    rw [hsource]
    cases hheld : t.desk.interpreter.source with
    | none => simpa [stoppedAfter, hheld] using hstarted
    | some source => simpa [stoppedAfter, hheld, hsource] using hstarted
  · rw [hsource]
    nofun
  · rw [hrecording, hdir]
    exact h.recording
  · rw [hrecording]
    exact h.idle
  · rw [hsession]
    exact h.session

/-- A recording begins or ends. -/
theorem Consistent.took {d : Desk δ} {c : Command} {reply : Reply} {take : Take} (h : t.Consistent)
    (hopens : t.desk.opens c = false) (htake : t.desk.take? c reply = some take)
    (hbefore : t.desk.shared.control.recording = !take.isBeginning)
    (hrecording : d.shared.control.recording = take.isBeginning)
    (hdir : ∀ dir, take = .began dir → d.shared.control.recordingDir = some dir)
    (hacquisition : d.shared.control.acquisition = t.desk.shared.control.acquisition)
    (hsession : d.shared.control.session = t.desk.shared.control.session)
    (hinterpreter : d.interpreter = t.desk.interpreter) : (t.record c reply d).Consistent := by
  have hstopped : t.stoppedAfter d = t.stopped := by
    rw [stoppedAfter, hinterpreter]
    cases t.desk.interpreter.source <;> rfl
  have hrecord : t.record c reply d = { t with desk := d, takes := t.takes ++ [take] } := by
    simp [Sitting.record, hopens, hstopped, htake]
  have hlast : (t.takes ++ [take]).getLast? = some take := List.getLast?_concat
  rw [hrecord]
  refine ⟨?_, ?_, ?_, List.isChain_append.2 ⟨h.takes, List.isChain_singleton _, ?_⟩, ?_, ?_, ?_⟩
  · rw [hacquisition, hinterpreter]
    exact h.camera
  · rw [hinterpreter]
    exact h.started
  · rw [hinterpreter]
    exact h.running
  · -- The last take is a beginning exactly if a recording was on.
    rintro last hl _ ⟨⟩
    cases take with
    | began dir =>
      cases last with
      | began dir' => exact absurd hl (h.idle hbefore dir')
      | ended => nofun
    | ended =>
      obtain ⟨dir, hbegan, -⟩ := h.recording hbefore
      obtain rfl : last = .began dir := Option.some.inj (hl.symm.trans hbegan)
      nofun
  · rw [hlast, hrecording]
    intro hbegins
    cases take with
    | began dir => exact ⟨dir, rfl, hdir dir rfl⟩
    | ended => cases hbegins
  · rw [hlast, hrecording]
    rintro hends dir ⟨⟩
    cases hends
  · rw [hsession]
    exact h.session

variable [BiasFacility δ]

/-- Every effect of a command keeps it. -/
theorem Consistent.record (h : t.Consistent) {c : Command} {reply : Reply} {d : Desk δ}
    (he : t.desk.Effect c reply d) : (t.record c reply d).Consistent := by
  cases he with
  | refused hc =>
    exact h.unaffected (Desk.opens_of_refused hc) (take?_error ..) ⟨rfl, rfl, rfl, rfl, rfl⟩
  | unopened hoff hopen =>
    exact h.unaffected (Desk.opens_of_unopened hopen) rfl ⟨rfl, rfl, rfl, rfl, rfl⟩
  | unstarted hoff hopen =>
    exact h.opened hoff (Desk.opens_iff.2 ⟨rfl, hoff, _, _, hopen⟩) ⟨_, rfl⟩ (h.source_eq_none hoff) nofun rfl
  | opened hoff hopen =>
    refine h.opened hoff (Desk.opens_iff.2 ⟨rfl, hoff, _, _, hopen⟩) ⟨_, rfl⟩ rfl ?_ rfl
    rintro _ ⟨⟩
    rfl
  | @closed lines hon =>
    have htakes : t.takes ++ (t.desk.take? .acquisitionOff (.ok lines)).toList = t.takes := List.append_nil _
    rw [Sitting.record, htakes]
    exact h.released rfl rfl rfl rfl rfl
  | @began now clock dir files lines hoff hclock hcreate =>
    have htake : t.desk.take? .recordingStart (.ok lines) = some (.began dir) := by
      simp [Desk.take?, hclock, hcreate]
    refine h.took rfl htake hoff rfl ?_ rfl rfl rfl
    rintro _ ⟨⟩
    rfl
  | ended hon => exact h.took rfl rfl hon rfl nofun rfl rfl rfl
  | unbegun | captured | uncaptured | quit => exact h.unaffected rfl rfl ⟨rfl, rfl, rfl, rfl, rfl⟩
  | answered hc | selected hc | stepped hc =>
    exact h.unaffected_of_not_switches hc ⟨rfl, rfl, rfl, rfl, rfl⟩
  | written hc | unwritten hc => exact h.unaffected_of_not_switches hc (leaves_putFacility ..)

theorem Consistent.act (h : t.Consistent) (m : SittingMove) : (t.act m).Consistent := by
  cases m with
  | handle c => exact h.record (Desk.effect_handle c t.desk)
  | shutdown => exact h.released rfl rfl rfl rfl rfl
  | meanwhile s => exact h.leaves ⟨rfl, rfl, rfl, rfl, rfl⟩

theorem Consistent.run (h : t.Consistent) (moves : List SittingMove) : (t.run moves).Consistent := by
  induction moves generalizing t with
  | nil => exact h
  | cons m rest ih => exact ih (h.act m)

/-! ## The selected bias -/

/-- The selected bias is one that the camera lists. -/
def Listed (d : Desk δ) : Prop :=
  ∀ source name, d.interpreter.source = some source → d.interpreter.selected = some name →
    ∃ biases, source.biases = some biases ∧ name ∈ BiasFacility.names biases

/-- The selected bias is listed by the facility that commands go to. -/
theorem Listed.mem_names {d : Desk δ} {biases : δ} {name : String} (h : Listed d) (hfacility : d.facility = .ok biases)
    (hselected : d.interpreter.selected = some name) : name ∈ BiasFacility.names biases := by
  obtain ⟨-, source, hsource, hbiases⟩ := Desk.facility_eq_ok hfacility
  obtain ⟨listed, hlisted, hname⟩ := h source name hsource hselected
  obtain rfl : listed = biases := Option.some.inj (hlisted.symm.trans hbiases)
  exact hname

/-- The camera takes a value or does not, and lists the same names as before. -/
theorem Listed.putFacility {d : Desk δ} {biases biases' : δ} (h : Listed d) (hfacility : d.facility = .ok biases)
    (hnames : BiasFacility.names biases' = BiasFacility.names biases) : Listed (d.putFacility biases') := by
  obtain ⟨-, source, hsource, -⟩ := Desk.facility_eq_ok hfacility
  have hput : (d.putFacility biases').interpreter.source = some { source with biases := some biases' } := by
    simp [Desk.putFacility, hsource]
  intro source' name hs hselected
  rw [hput] at hs
  cases hs
  exact ⟨biases', rfl, hnames ▸ h.mem_names hfacility hselected⟩

theorem Listed.effect (hnames : BiasFacility.KeepsNames δ) {d d' : Desk δ} (h : Listed d) {c : Command} {reply : Reply}
    (he : d.Effect c reply d') : Listed d' := by
  cases he with
  | unstarted | opened | closed => nofun
  | @selected c name biases lines hc hfacility hname =>
    obtain ⟨-, source, hsource, hbiases⟩ := Desk.facility_eq_ok hfacility
    rintro source' _ hs ⟨⟩
    obtain rfl : source' = source := Option.some.inj (hs.symm.trans hsource)
    exact ⟨biases, hbiases, hname⟩
  | written _ hfacility hset | unwritten _ hfacility hset =>
    exact h.putFacility hfacility (hnames.names_eq_of_set hset)
  | _ => exact h

theorem Listed.run (hnames : BiasFacility.KeepsNames δ) (h : Listed t.desk) (moves : List SittingMove) :
    Listed (t.run moves).desk := by
  induction moves generalizing t with
  | nil => exact h
  | cons m rest ih =>
    refine ih (t := t.act m) ?_
    cases m with
    | handle c => exact h.effect hnames (Desk.effect_handle c t.desk)
    | shutdown => nofun
    | meanwhile s => exact h

/-- A bias that the camera lists can be shown. -/
theorem Listed.showSelected_ne_unknown {d : Desk δ} (h : Listed d) (name : String) :
    (d.handle .showSelected).1 ≠ .error (.bias (.unknown name)) := by
  show d.showSelected.1 ≠ _
  unfold Desk.showSelected
  split
  · next e hfacility =>
    unfold Desk.facility at hfacility
    split at hfacility
    · split at hfacility
      · cases hfacility
      · cases hfacility
        nofun
    · cases hfacility
      nofun
  · next biases hfacility =>
    split
    · nofun
    · next hselected =>
      split
      · next hunlisted =>
        exact absurd (h.mem_names hfacility hselected) (BiasFacility.listed?_eq_none_iff.1 hunlisted)
      · nofun

/-! ## Every sitting -/

/-- A camera that is let go leaves a window reset pending. -/
theorem resetRequested_of_closed {d d' : Desk δ} {lines : List String}
    (h : d.handle .acquisitionOff = (.ok lines, d')) : d'.shared.control.resetRequested = true := by
  have he := Desk.effect_handle .acquisitionOff d
  rw [h] at he
  cases he with
  | closed => rfl
  | answered hc | selected hc | written hc | stepped hc => cases hc

/-- Whatever the provider opens, if facilities go on listing the names they list: after every command and every shutdown
acquisition is on exactly if a camera is held, it is running, and of the cameras started it is the only one not stopped;
while recording is on, its directory is that of the last run that was begun, and no run is begun twice in a row; the
selected bias is listed by the camera, so that it can be shown; and the session counts the cameras opened. A command
that opens a camera or lets it go leaves a window reset pending. -/
theorem consistent (hnames : BiasFacility.KeepsNames δ) (s : Shared) (i : Interpreter δ) (moves : List SittingMove) :
    let t := (start s i).run moves
    let control := t.desk.shared.control
    let camera := t.desk.interpreter.source
    (control.acquisition = camera.isSome ∧ t.started = t.stopped + camera.toList.length ∧
      ∀ source, camera = some source → source.running = true) ∧
    ((control.recording = true →
        ∃ dir, t.takes.getLast? = some (.began dir) ∧ control.recordingDir = some dir) ∧
      t.takes.IsChain fun a b => a.isBeginning ≠ b.isBeginning) ∧
    ((∀ source name, camera = some source → t.desk.interpreter.selected = some name →
        ∃ biases, source.biases = some biases ∧ name ∈ BiasFacility.names biases) ∧
      ∀ name, (t.desk.handle .showSelected).1 ≠ .error (.bias (.unknown name))) ∧
    (control.session = UInt64.ofNat t.opened ∧
      (∀ c, t.desk.opens c = true → (t.desk.handle c).2.shared.control.resetRequested = true) ∧
      ∀ lines d, t.desk.handle .acquisitionOff = (.ok lines, d) → d.shared.control.resetRequested = true) := by
  intro t control camera
  have h : t.Consistent := (consistent_start s i).run moves
  have hnone : Listed (start s i).desk := nofun
  have hlisted : Listed t.desk := hnone.run hnames moves
  refine ⟨⟨h.camera, h.started, h.running⟩, ⟨h.recording, h.takes⟩, ⟨hlisted, ?_⟩, h.session, ?_, ?_⟩
  · exact hlisted.showSelected_ne_unknown
  · intro c hopens
    exact (Desk.effect_of_opens hopens (Desk.effect_handle c t.desk)).1
  · intro lines d hclosed
    exact resetRequested_of_closed hclosed

/-- A camera with one bias is switched on and its biases are listed, which selects the bias. -/
theorem consistent_memory :
    let camera : Source MemoryBiases := ⟨"camera", ⟨2, 1⟩, some (.insert "gain" 0 default .empty), none, false⟩
    let moves : List SittingMove := [.handle .acquisitionOn, .handle .listBiases]
    let t := (start (.initial 4) (.new ⟨["camera"], fun _ _ => .ok camera, 0⟩ ⟨"out"⟩)).run moves
    t.desk.shared.control.acquisition = true ∧ t.started = 1 ∧ t.stopped = 0 ∧
      t.desk.interpreter.selected = some "gain" ∧
      ∀ name, (t.desk.handle .showSelected).1 ≠ .error (.bias (.unknown name)) := by
  intro camera moves t
  have h := consistent MemoryBiases.keepsNames (.initial 4) (.new ⟨["camera"], fun _ _ => .ok camera, 0⟩ ⟨"out"⟩) moves
  exact ⟨rfl, rfl, rfl, rfl, h.2.2.1.2⟩

end Sitting

end EventCamera
