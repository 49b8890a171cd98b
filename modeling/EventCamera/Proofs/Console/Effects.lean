import EventCamera.Console.Interpreter
import EventCamera.Proofs.Bias.Writes
/-!
# What a command does

`Desk.effect_handle`: carrying out a command has one of the effects listed in `Desk.Effect`, each with what the command
found and what it leaves. What holds of the console is proved by cases over the effects and looks at no command again.
-/

namespace EventCamera

/-- Whether the command switches the camera, a recording or the program. -/
def Command.switches : Command → Bool
  | acquisitionOn | acquisitionOff | recordingStart | recordingStop | quit => true
  | _ => false

/-! ## Biases -/

namespace BiasFacility

variable {δ : Type} [BiasFacility δ] {d d' : δ} {name : String} {value : BiasValue}

/-- The listed names. -/
def names (d : δ) : List String := (list d).map Prod.fst

theorem listed?_eq_none_iff : listed? d name = none ↔ name ∉ names d := by
  simp only [listed?, names, List.lookup_eq_none_iff, List.mem_map, not_exists, not_and]
  constructor
  · rintro h p hp rfl
    exact absurd (h p hp) (by simp)
  · intro h p hp
    simpa using fun he => h p hp he.symm

/-- Whether a device lists the same names for good. -/
def KeepsNames (δ : Type) [BiasFacility δ] : Prop :=
  ∀ (d : δ) (name : String) (value : BiasValue), names (set d name value).2 = names d

theorem KeepsNames.names_eq_of_set (hnames : KeepsNames δ) {result : Except BiasError Unit}
    (hset : set d name value = (result, d')) : names d' = names d := by
  rw [← hnames d name value, hset]

/-- How a change ended: turned down before the device was touched, or with one write. -/
inductive Ended (d : δ) : Except BiasError BiasChange × δ → Prop
  | refused (e : BiasError) : Ended d (.error e, d)
  | failed {name : String} {value : BiasValue} {e : BiasError} {d' : δ} (hset : set d name value = (.error e, d')) :
      Ended d (.error e, d')
  | written {name : String} {value : BiasValue} {d' : δ} (hset : set d name value = (.ok (), d'))
      (change : BiasChange) : Ended d (.ok change, d')

theorem ended_apply (name : String) (value : BiasValue) (d : δ) : Ended d (apply name value d) := by
  unfold apply
  split
  · exact .refused _
  · split
    · exact .refused _
    · dsimp only
      split
      · next hset => exact .failed hset
      · next hset => exact .written hset _

theorem ended_adjust (name : String) (delta : BiasValue) (d : δ) : Ended d (adjust name delta d) := by
  unfold adjust
  split
  · exact .refused _
  · exact ended_apply name _ d

end BiasFacility

namespace MemoryBiases

theorem names_eq (m : MemoryBiases) : BiasFacility.names m = m.infos.map Prod.fst := by
  simp [BiasFacility.names, BiasFacility.list, infos, Function.comp_def]

theorem keepsNames : BiasFacility.KeepsNames MemoryBiases := by
  intro m name value
  rw [names_eq, names_eq]
  show (m.set name value).2.infos.map Prod.fst = _
  rcases m.set_cases name value with ⟨b, -, -, -, h⟩ | ⟨e, -, h⟩
  · rw [h, infos_replaceValue]
    rfl
  · rw [h]
    rfl

/-- A write that fails changes no value. -/
theorem entries_of_set_error {m m' : MemoryBiases} {name : String} {value : BiasValue} {e : BiasError}
    (h : BiasFacility.set m name value = (.error e, m')) : m'.entries = m.entries := by
  change m.set name value = _ at h
  rcases m.set_cases name value with ⟨b, -, -, -, hset⟩ | ⟨e, -, hset⟩
  · rw [hset] at h
    cases h
  · rw [hset] at h
    cases h
    rfl

end MemoryBiases

namespace Desk

variable {δ : Type}

/-! ## The camera -/

/-- Preparing a source changes its facility and whether the next one is listed. -/
theorem prepareBiases_eq [BiasFacility δ] (i : Interpreter δ) (source : Source δ) :
    ∃ lines listOnOpen biases,
      prepareBiases i source = (lines, { i with listOnOpen }, { source with biases }) := by
  unfold prepareBiases
  split
  · exact ⟨_, i.listOnOpen, source.biases, rfl⟩
  · exact ⟨_, false, some _, rfl⟩

theorem start_eq_ok {source started : Source δ} (h : source.start = .ok started) :
    started = { source with running := true } := by
  unfold Source.start at h
  split at h
  · cases h
  · split at h
    · cases h
    · cases h
      rfl

/-- Whether the command will open a camera. -/
def opens (c : Command) (d : Desk δ) : Bool :=
  match c with
  | .acquisitionOn => !d.shared.control.acquisition && d.interpreter.provider.openFirst.1.isOk
  | _ => false

theorem opens_iff {d : Desk δ} {c : Command} :
    d.opens c = true ↔ c = .acquisitionOn ∧ d.shared.control.acquisition = false ∧
      ∃ source provider, d.interpreter.provider.openFirst = (.ok source, provider) := by
  cases c with
  | acquisitionOn =>
    rcases hopen : d.interpreter.provider.openFirst with ⟨_ | source, provider⟩ <;>
      simp [opens, hopen, Except.isOk, Except.toBool]
  | _ => simp [opens]

theorem opens_of_not_switches {d : Desk δ} {c : Command} (hc : c.switches = false) : d.opens c = false := by
  cases c <;> first | rfl | cases hc

theorem opens_of_refused {d : Desk δ} {c : Command}
    (hc : c = .acquisitionOn → d.shared.control.acquisition = true) : d.opens c = false := by
  rw [← Bool.not_eq_true, opens_iff]
  rintro ⟨rfl, hoff, -⟩
  rw [hc rfl] at hoff
  cases hoff

theorem opens_of_unopened {d : Desk δ} {c : Command} {e : SourceError} {provider : Provider δ}
    (hopen : d.interpreter.provider.openFirst = (.error e, provider)) : d.opens c = false := by
  rw [← Bool.not_eq_true, opens_iff]
  rintro ⟨-, -, source, provider', hopen'⟩
  rw [hopen] at hopen'
  cases hopen'

/-! ## The bias facility of the open camera -/

theorem facility_eq_ok {d : Desk δ} {biases : δ} (h : d.facility = .ok biases) :
    d.shared.control.acquisition = true ∧
      ∃ source, d.interpreter.source = some source ∧ source.biases = some biases := by
  unfold facility at h
  split at h
  · next hon =>
    split at h
    · next hbiases =>
      cases h
      obtain ⟨source, hsource, hb⟩ := Option.bind_eq_some_iff.1 hbiases
      exact ⟨hon, source, hsource, hb⟩
    · cases h
  · cases h

/-- Putting the facility back as it was. -/
theorem putFacility_self {d : Desk δ} {biases : δ} (h : d.facility = .ok biases) : d.putFacility biases = d := by
  obtain ⟨-, source, hsource, hbiases⟩ := facility_eq_ok h
  obtain ⟨shared, interpreter⟩ := d
  obtain ⟨provider, held, root, selected, steps, presets, listOnOpen, subscriptions⟩ := interpreter
  obtain ⟨id, geometry, held', startError, running⟩ := source
  cases hsource
  cases hbiases
  rfl

/-! ## Effects -/

/-- What a command can do to the desk, with the reply it gives. -/
inductive Effect [BiasFacility δ] (d : Desk δ) : Command → Reply → Desk δ → Prop
  /-- It is turned down. -/
  | refused {c : Command} {e : CommandError} (hc : c = .acquisitionOn → d.shared.control.acquisition = true) :
      Effect d c (.error e) d
  /-- It only replies. -/
  | answered {c : Command} {lines : List String} (hc : c.switches = false) : Effect d c (.ok lines) d
  /-- No camera can be opened. -/
  | unopened {e : SourceError} {provider : Provider δ} (hoff : d.shared.control.acquisition = false)
      (hopen : d.interpreter.provider.openFirst = (.error e, provider)) :
      Effect d .acquisitionOn (.error (.source e)) { d with interpreter.provider := provider }
  /-- A camera is opened in a new session and does not start. -/
  | unstarted {source : Source δ} {provider : Provider δ} {e : SourceError} {listOnOpen : Bool}
      (hoff : d.shared.control.acquisition = false)
      (hopen : d.interpreter.provider.openFirst = (.ok source, provider)) :
      Effect d .acquisitionOn (.error (.source e))
        ⟨(d.shared.write (Control.acquisitionWrites source.geometry)).write [.acquisition false, .requestReset],
          { d.interpreter with
            provider, selected := none, listOnOpen
            subscriptions := d.interpreter.subscriptions ++ [d.shared.control.session + 1] }⟩
  /-- A camera is opened in a new session and starts. -/
  | opened {source : Source δ} {provider : Provider δ} {lines : List String} {listOnOpen : Bool} {biases : Option δ}
      (hoff : d.shared.control.acquisition = false)
      (hopen : d.interpreter.provider.openFirst = (.ok source, provider)) :
      Effect d .acquisitionOn (.ok lines)
        ⟨d.shared.write (Control.acquisitionWrites source.geometry),
          { d.interpreter with
            provider, selected := none, listOnOpen
            source := some { source with biases, running := true }
            subscriptions := d.interpreter.subscriptions ++ [d.shared.control.session + 1] }⟩
  /-- The camera is let go. -/
  | closed {lines : List String} (hon : d.shared.control.acquisition = true) :
      Effect d .acquisitionOff (.ok lines)
        ⟨((d.shared.write [.acquisition false]).clearQueue.2.clearQueue.2).write [.requestReset],
          { d.interpreter with source := none, selected := none }⟩
  /-- A recording begins in a new run directory. -/
  | began {now : Instant} {clock : Clock} {dir : Path} {files : FileTree} {lines : List String}
      (hoff : d.shared.control.recording = false) (hclock : d.shared.clock.read = (now, clock))
      (hcreate : createRun d.interpreter.outputRoot now d.shared.files = (.ok dir, files)) :
      Effect d .recordingStart (.ok lines)
        ((d.change ({ · with clock, files })).write (Control.recordingWrites dir))
  /-- There is no run directory to record in. -/
  | unbegun {now : Instant} {clock : Clock} {e : StorageError} {files : FileTree}
      (hclock : d.shared.clock.read = (now, clock))
      (hcreate : createRun d.interpreter.outputRoot now d.shared.files = (.error e, files)) :
      Effect d .recordingStart (.error (.storage e)) (d.change ({ · with clock, files }))
  | ended {lines : List String} (hon : d.shared.control.recording = true) :
      Effect d .recordingStop (.ok lines) (d.write [.recording false])
  | captured {published : Published} {now : Instant} {clock : Clock} {path : Path} {files : FileTree}
      {lines : List String} (hlatest : d.shared.latest = some published)
      (hclock : d.shared.clock.read = (now, clock))
      (hsave : saveCapture d.interpreter.outputRoot published.frame now d.shared.files = (.ok path, files)) :
      Effect d .capture (.ok lines) (d.change ({ · with clock, files }))
  /-- The latest frame cannot be stored. -/
  | uncaptured {published : Published} {now : Instant} {clock : Clock} {e : StorageError} {files : FileTree}
      (hlatest : d.shared.latest = some published) (hclock : d.shared.clock.read = (now, clock))
      (hsave : saveCapture d.interpreter.outputRoot published.frame now d.shared.files = (.error e, files)) :
      Effect d .capture (.error (.storage e)) (d.change ({ · with clock, files }))
  | quit {lines : List String} : Effect d .quit (.ok lines) (d.write [.shutdown])
  /-- A listed bias is selected. -/
  | selected {c : Command} {name : String} {biases : δ} {lines : List String} (hc : c.switches = false)
      (hfacility : d.facility = .ok biases) (hname : name ∈ BiasFacility.names biases) :
      Effect d c (.ok lines) { d with interpreter.selected := some name }
  /-- The open camera takes a value for a bias. -/
  | written {c : Command} {name : String} {value : BiasValue} {biases biases' : δ} {lines : List String}
      (hc : c.switches = false) (hfacility : d.facility = .ok biases)
      (hset : BiasFacility.set biases name value = (.ok (), biases')) :
      Effect d c (.ok lines) (d.putFacility biases')
  /-- The open camera does not take a value for a bias. -/
  | unwritten {c : Command} {name : String} {value : BiasValue} {biases biases' : δ} {e : BiasError}
      (hc : c.switches = false) (hfacility : d.facility = .ok biases)
      (hset : BiasFacility.set biases name value = (.error e, biases')) :
      Effect d c (.error (.bias e)) (d.putFacility biases')
  | stepped {c : Command} {steps : StepSelector} {lines : List String} (hc : c.switches = false) :
      Effect d c (.ok lines) { d with interpreter.steps := steps }

variable [BiasFacility δ] {d : Desk δ}

/-- A command that does not open the camera can be turned down at any time. -/
theorem Effect.refused_of_not_switches {c : Command} (hc : c.switches = false) (e : CommandError) :
    d.Effect c (.error e) d := by
  refine .refused ?_
  rintro rfl
  cases hc

theorem effect_acquisitionOn (d : Desk δ) : d.Effect .acquisitionOn d.acquisitionOn.1 d.acquisitionOn.2 := by
  unfold acquisitionOn
  split
  · next hon => exact .refused fun _ => hon
  · next hoff =>
    rw [Bool.not_eq_true] at hoff
    split
    · next hopen => exact .unopened hoff hopen
    · next source provider hopen =>
      obtain ⟨lines, listOnOpen, biases, hprepare⟩ := prepareBiases_eq { d.interpreter with
        provider, selected := none
        subscriptions := d.interpreter.subscriptions ++
          [(d.shared.write (Control.acquisitionWrites source.geometry)).control.session] } source
      dsimp only
      rw [hprepare]
      dsimp only
      split
      · exact .unstarted hoff hopen
      · next started hstart =>
        rw [start_eq_ok hstart]
        exact .opened hoff hopen

theorem effect_acquisitionOff (d : Desk δ) : d.Effect .acquisitionOff d.acquisitionOff.1 d.acquisitionOff.2 := by
  unfold acquisitionOff
  split
  · next hon => exact .closed hon
  · exact .refused nofun

theorem effect_recordingStart (d : Desk δ) : d.Effect .recordingStart d.recordingStart.1 d.recordingStart.2 := by
  unfold recordingStart
  split
  · exact .refused nofun
  · next hoff =>
    split
    next hclock =>
    split
    · next hcreate => exact .unbegun hclock hcreate
    · next hcreate => exact .began (by simpa using hoff) hclock hcreate

theorem effect_recordingStop (d : Desk δ) : d.Effect .recordingStop d.recordingStop.1 d.recordingStop.2 := by
  unfold recordingStop
  split
  · next hon => exact .ended hon
  · exact .refused nofun

theorem effect_capture (d : Desk δ) : d.Effect .capture d.capture.1 d.capture.2 := by
  unfold capture
  split
  · exact .refused nofun
  · next hlatest =>
    split
    next hclock =>
    split
    · next hsave => exact .uncaptured hlatest hclock hsave
    · next hsave => exact .captured hlatest hclock hsave

theorem effect_listBiases {c : Command} (hc : c.switches = false) (verbose : Bool) (d : Desk δ) :
    d.Effect c (d.listBiases verbose).1 (d.listBiases verbose).2 := by
  unfold listBiases
  split
  · exact .refused_of_not_switches hc _
  · next biases hfacility =>
    dsimp only
    split
    · exact .answered hc
    · next first value hfirst =>
      cases hs : d.interpreter.selected with
      | none =>
        refine .selected hc hfacility ?_
        exact List.mem_map.2 ⟨_, List.mem_of_mem_head? hfirst, rfl⟩
      | some name =>
        have hsame : { d with interpreter.selected := some name } = d := by rw [← hs]
        dsimp only [Option.getD_some]
        rw [hsame]
        exact .answered hc

theorem effect_selectBias (name : String) (d : Desk δ) :
    d.Effect (.selectBias name) (d.selectBias name).1 (d.selectBias name).2 := by
  unfold selectBias
  split
  · exact .refused nofun
  · next biases hfacility =>
    dsimp only
    split
    · exact .answered rfl
    · split
      · exact .refused nofun
      · next hlisted =>
        refine .selected rfl hfacility (Decidable.byContradiction fun hname => ?_)
        rw [BiasFacility.listed?_eq_none_iff.2 hname] at hlisted
        cases hlisted

theorem effect_reportChange {c : Command} (hc : c.switches = false) {biases : δ} (hfacility : d.facility = .ok biases)
    {result : Except BiasError BiasChange × δ} (hended : BiasFacility.Ended biases result) :
    d.Effect c (d.reportChange result).1 (d.reportChange result).2 := by
  cases hended with
  | refused e =>
    unfold reportChange
    dsimp only
    rw [putFacility_self hfacility]
    exact .refused_of_not_switches hc _
  | failed hset => exact .unwritten hc hfacility hset
  | written hset change => exact .written hc hfacility hset

theorem effect_adjustSelected {c : Command} (hc : c.switches = false) (direction : BiasValue) (d : Desk δ) :
    d.Effect c (d.adjustSelected direction).1 (d.adjustSelected direction).2 := by
  unfold adjustSelected
  split
  · exact .refused_of_not_switches hc _
  · next hfacility =>
    split
    · exact .refused_of_not_switches hc _
    · exact effect_reportChange hc hfacility (BiasFacility.ended_adjust ..)

theorem effect_setBias (name : String) (value : BiasValue) (d : Desk δ) :
    d.Effect (.setBias name value) (d.setBias name value).1 (d.setBias name value).2 := by
  unfold setBias
  split
  · exact .refused nofun
  · next hfacility => exact effect_reportChange rfl hfacility (BiasFacility.ended_apply ..)

theorem effect_showSelected (d : Desk δ) : d.Effect .showSelected d.showSelected.1 d.showSelected.2 := by
  unfold showSelected
  split
  · exact .refused nofun
  · split
    · exact .refused nofun
    · split
      · exact .refused nofun
      · exact .answered rfl

/-- Carrying out a command has one of the effects. -/
theorem effect_handle (c : Command) (d : Desk δ) : d.Effect c (d.handle c).1 (d.handle c).2 := by
  cases c with
  | acquisitionOn => exact effect_acquisitionOn d
  | acquisitionOff => exact effect_acquisitionOff d
  | recordingStart => exact effect_recordingStart d
  | recordingStop => exact effect_recordingStop d
  | quit => exact .quit
  | listBiases => exact effect_listBiases rfl false d
  | describeBiases => exact effect_listBiases rfl true d
  | selectBias name => exact effect_selectBias name d
  | raiseBias => exact effect_adjustSelected rfl 1 d
  | lowerBias => exact effect_adjustSelected rfl (-1) d
  | stepUp => exact .stepped rfl
  | stepDown => exact .stepped rfl
  | showSelected => exact effect_showSelected d
  | setBias name value => exact effect_setBias name value d
  | capture => exact effect_capture d
  | help => exact .answered rfl

/-! ## Opening a camera -/

/-- A camera that is opened leaves a window reset pending, whether it starts or not. If it does not, acquisition is off
and the camera is not held. -/
theorem effect_of_opens {d' : Desk δ} {c : Command} {reply : Reply} (hopens : d.opens c = true)
    (he : d.Effect c reply d') :
    d'.shared.control.resetRequested = true ∧
      ∀ e, reply = .error e →
        d'.shared.control.acquisition = false ∧ d'.interpreter.source = d.interpreter.source := by
  obtain ⟨rfl, hoff, source, provider, hopen⟩ := opens_iff.1 hopens
  cases he with
  | refused hc =>
    rw [opens_of_refused hc] at hopens
    cases hopens
  | unopened _ hfailed =>
    rw [opens_of_unopened hfailed] at hopens
    cases hopens
  | unstarted => exact ⟨rfl, fun _ _ => ⟨rfl, rfl⟩⟩
  | opened => exact ⟨rfl, nofun⟩
  | answered hc | selected hc | written hc | unwritten hc | stepped hc => cases hc

end Desk

end EventCamera
