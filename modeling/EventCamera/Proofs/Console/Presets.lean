import EventCamera.Camera.Synthetic
import EventCamera.Proofs.Console.Sitting
/-!
# Presets

`Sitting.presets_hold`: whatever was done before, a synthetic camera that is switched on has the values of the presets.
A bias that can be modified has the value of the last preset for it, as far as it is recommended, and every other bias
has its usual value; the reply has a line for each preset that was written, in order, with the value before it and after.

`applyPresets_eq` is about a table: `AfterPresets` says what the presets so far have made of it. That a history of commands
leaves the provider and the presets alone is read off the effects of commands (`Furnished.effect`).
-/

namespace EventCamera

/-- A value to write to the bias of that name. -/
abbrev Preset := String × BiasValue

namespace MemoryBias

/-- The value that presets leave a bias with: the last one for it, as far as it is recommended. -/
def presetTo (name : String) (presets : List Preset) (b : MemoryBias) : BiasValue :=
  if b.info.modifiable then ((presets.reverse.lookup name).map b.info.recommended.clamp).getD b.value else b.value

variable {name other : String} {value : BiasValue} {presets : List Preset} {b : MemoryBias}

theorem presetTo_concat (h : b.info.modifiable = true) :
    b.presetTo name (presets ++ [(name, value)]) = b.info.recommended.clamp value := by
  rw [presetTo, if_pos h, List.reverse_concat, List.lookup_cons_self]
  rfl

theorem presetTo_concat_of_ne (h : other ≠ name) :
    b.presetTo other (presets ++ [(name, value)]) = b.presetTo other presets := by
  have hne : (other == name) = false := by simpa using h
  rw [presetTo, presetTo, List.reverse_concat, List.lookup_cons, hne]

theorem presetTo_of_not_modifiable (h : b.info.modifiable = false) : b.presetTo name presets = b.value := by
  rw [presetTo, h, if_neg Bool.false_ne_true]

end MemoryBias

namespace MemoryBiases

/-- The bias of that name, if it can be modified. -/
def tunable? (m : MemoryBiases) (name : String) : Option MemoryBias := (m.find? name).filter (·.info.modifiable)

/-- The line that reports a preset that comes after others, if it is written. -/
def presetReport? (m : MemoryBiases) (before : List Preset) (p : Preset) : Option String :=
  (m.tunable? p.1).map fun b =>
    let applied := b.info.recommended.clamp p.2
    BiasChange.text ⟨p.1, some (b.presetTo p.1 before), p.2, applied, applied != p.2⟩

/-- The reports of the presets in order, each of which comes after those before it. -/
def presetReports (m : MemoryBiases) (presets : List Preset) : List String :=
  presets.zipIdx.filterMap fun p => m.presetReport? (presets.take p.2) p.1

/-- Writes work, and everything recommended is taken. -/
structure Receptive (m : MemoryBiases) : Prop where
  works : m.failWrites = false
  ordered : m.Ordered
  allowed : ∀ p ∈ m.infos, p.2.allowed.min ≤ p.2.recommended.min ∧ p.2.recommended.max ≤ p.2.allowed.max

theorem Receptive.allowed_clamp {m : MemoryBiases} {name : String} {b : MemoryBias} (h : m.Receptive)
    (hb : m.find? name = some b) (value : BiasValue) :
    b.info.allowed.contains (b.info.recommended.clamp value) = true :=
  have ⟨hmin, hmax⟩ := h.allowed _ (mem_infos hb)
  MemoryBiases.allowed_clamp (h.ordered.recommended hb) hmin hmax value

theorem receptive_standard : standard.Receptive where
  works := rfl
  ordered := show ∀ p ∈ standard.infos, p.2.recommended.min ≤ p.2.recommended.max by decide +kernel
  allowed := by decide +kernel

/-- The table after presets were written to it as it was at the start. -/
structure AfterPresets (start : MemoryBiases) (presets : List Preset) (m : MemoryBiases) : Prop where
  works : m.failWrites = start.failWrites
  infos : m.infos = start.infos
  values : ∀ name, m.find? name = (start.find? name).map fun b => { b with value := b.presetTo name presets }

variable {start m : MemoryBiases} {name : String} {value : BiasValue} {done : List Preset}

theorem afterPresets_nil (start : MemoryBiases) : start.AfterPresets [] start where
  works := rfl
  infos := rfl
  values name := by
    cases start.find? name with
    | none => rfl
    | some b =>
      have hvalue : b.presetTo name [] = b.value := by
        unfold MemoryBias.presetTo
        split <;> rfl
      rw [Option.map_some, hvalue]

/-- A preset that changes nothing: there is no such bias, or it cannot be modified. -/
theorem AfterPresets.pass (h : start.AfterPresets done m) (hname : start.tunable? name = none) :
    start.AfterPresets (done ++ [(name, value)]) m := by
  refine ⟨h.works, h.infos, fun other => ?_⟩
  rw [h.values]
  cases hb : start.find? other with
  | none => rfl
  | some b =>
    by_cases hne : other = name
    · subst hne
      have hfixed : b.info.modifiable = false := by simpa [tunable?, hb] using hname
      simp only [Option.map_some, MemoryBias.presetTo_of_not_modifiable hfixed]
    · rw [Option.map_some, Option.map_some, MemoryBias.presetTo_concat_of_ne hne]

/-- A preset that is written. -/
theorem AfterPresets.put (h : start.AfterPresets done m) {b : MemoryBias} (hname : start.tunable? name = some b) :
    start.AfterPresets (done ++ [(name, value)])
      ({ m with setCalls := m.setCalls + 1 }.replaceValue name (b.info.recommended.clamp value)) := by
  obtain ⟨hb, hmodifiable⟩ := Option.filter_eq_some_iff.1 hname
  refine ⟨h.works, (infos_replaceValue ..).trans h.infos, fun other => ?_⟩
  have hbefore : ({ m with setCalls := m.setCalls + 1 } : MemoryBiases).find? other = m.find? other := rfl
  rw [find?_replaceValue, hbefore, h.values, Option.map_map]
  by_cases hne : other = name
  · subst hne
    rw [hb]
    simp [MemoryBias.presetTo_concat hmodifiable]
  · refine congrArg (Option.map · _) (funext fun c => ?_)
    simp [hne, MemoryBias.presetTo_concat_of_ne hne]

/-- A preset is passed over or written, and only then it is reported. -/
theorem AfterPresets.apply (h : start.AfterPresets done m) (hstart : start.Receptive) (name : String)
    (value : BiasValue) :
    (∃ e, BiasFacility.apply name value m = (.error e, m) ∧ start.presetReport? done (name, value) = none ∧
      start.AfterPresets (done ++ [(name, value)]) m) ∨
    ∃ change m', BiasFacility.apply name value m = (.ok change, m') ∧
      start.presetReport? done (name, value) = some change.text ∧ start.AfterPresets (done ++ [(name, value)]) m' := by
  have hvalues := h.values name
  rcases m.apply_cases name value with ⟨hb, happly⟩ | ⟨b, hb, hfixed, happly⟩ | ⟨b, e, hb, -, hwhy, -⟩ |
    ⟨b, hb, hmodifiable, -, -, happly⟩
  · have hnone : start.tunable? name = none := by
      rw [hb] at hvalues
      rw [tunable?, Option.map_eq_none_iff.1 hvalues.symm]
      rfl
    exact .inl ⟨_, happly, by rw [presetReport?, hnone]; rfl, h.pass hnone⟩
  · have hnone : start.tunable? name = none := by
      rw [hb] at hvalues
      obtain ⟨b₀, hb₀, rfl⟩ := Option.map_eq_some_iff.1 hvalues.symm
      rw [tunable?, hb₀]
      simpa using hfixed
    exact .inl ⟨_, happly, by rw [presetReport?, hnone]; rfl, h.pass hnone⟩
  · -- everything recommended is allowed, so no write fails
    rw [hb] at hvalues
    obtain ⟨b₀, hb₀, rfl⟩ := Option.map_eq_some_iff.1 hvalues.symm
    rw [h.works, hstart.works, hstart.allowed_clamp hb₀] at hwhy
    rcases hwhy with hwhy | hwhy <;> cases hwhy
  · rw [hb] at hvalues
    obtain ⟨b₀, hb₀, rfl⟩ := Option.map_eq_some_iff.1 hvalues.symm
    have hsome : start.tunable? name = some b₀ := Option.filter_eq_some_iff.2 ⟨hb₀, hmodifiable⟩
    have hafter : start.AfterPresets (done ++ [(name, value)]) _ := h.put hsome
    exact .inr ⟨_, _, happly, by rw [presetReport?, hsome]; rfl, hafter⟩

/-- The reports of further presets. -/
def reportsAfter (m : MemoryBiases) (done rest : List Preset) : List String :=
  (rest.zipIdx done.length).filterMap fun p => m.presetReport? ((done ++ rest).take p.2) p.1

theorem reportsAfter_cons (m : MemoryBiases) (done : List Preset) (p : Preset) (rest : List Preset) :
    m.reportsAfter done (p :: rest) = (m.presetReport? done p).toList ++ m.reportsAfter (done ++ [p]) rest := by
  have hlength : (done ++ [p]).length = done.length + 1 := by rw [List.length_append, List.length_singleton]
  simp only [reportsAfter, List.zipIdx_cons, List.filterMap_cons, List.take_left, hlength, List.append_assoc,
    List.singleton_append]
  cases m.presetReport? done p <;> rfl

/-- Presets after others. -/
theorem AfterPresets.applyPresets (hstart : start.Receptive) (h : start.AfterPresets done m) (rest : List Preset) :
    ∃ m', Desk.applyPresets rest m = (start.reportsAfter done rest, m') ∧ start.AfterPresets (done ++ rest) m' := by
  induction rest generalizing done m with
  | nil => exact ⟨m, rfl, by rwa [List.append_nil]⟩
  | cons p rest ih =>
    obtain ⟨name, value⟩ := p
    have hcons : done ++ (name, value) :: rest = done ++ [(name, value)] ++ rest := List.append_cons ..
    rw [reportsAfter_cons, hcons, Desk.applyPresets]
    rcases h.apply hstart name value with ⟨e, happly, hreport, hafter⟩ | ⟨change, m', happly, hreport, hafter⟩
    · obtain ⟨m', hrest, hafter'⟩ := ih hafter
      refine ⟨m', ?_, hafter'⟩
      rw [happly, hreport]
      exact hrest
    · obtain ⟨m'', hrest, hafter'⟩ := ih hafter
      refine ⟨m'', ?_, hafter'⟩
      rw [happly, hreport]
      dsimp only
      rw [hrest]
      rfl

/-- Writing presets to a table. -/
theorem applyPresets_eq (h : m.Receptive) (presets : List Preset) :
    ∃ m', Desk.applyPresets presets m = (m.presetReports presets, m') ∧ m.AfterPresets presets m' :=
  m.afterPresets_nil.applyPresets h presets

end MemoryBiases

/-! ## Every session -/

/-- The camera is only switched on when it is off. -/
theorem Desk.off_of_opened {δ : Type} [BiasFacility δ] {d d' : Desk δ} {lines : List String}
    (h : d.handle .acquisitionOn = (.ok lines, d')) : d.shared.control.acquisition = false := by
  have he := effect_handle .acquisitionOn d
  rw [h] at he
  cases he with
  | opened hoff => exact hoff
  | answered hc | selected hc | written hc | stepped hc => cases hc

/-- The interpreter opens synthetic cameras and writes the presets to them. -/
structure Furnished (s : SyntheticSettings) (presets : List Preset) (i : Interpreter MemoryBiases) : Prop where
  presets : i.presets = presets
  provider : ∃ attempts, i.provider = { Synthetic.provider s with attempts }

namespace Furnished

variable {s : SyntheticSettings} {presets : List Preset} {d d' : Desk MemoryBiases}

/-- Opening a camera gives a new one, as it was the first time. -/
theorem openFirst (h : Furnished s presets d.interpreter) :
    ∃ provider, d.interpreter.provider.openFirst = (.ok (Synthetic.source s Synthetic.deviceName), provider) ∧
      ∃ attempts, provider = { Synthetic.provider s with attempts } := by
  obtain ⟨attempts, hprovider⟩ := h.provider
  rw [hprovider]
  exact ⟨_, rfl, attempts + 1, rfl⟩

theorem effect {c : Command} {reply : Reply} (h : Furnished s presets d.interpreter) (he : d.Effect c reply d') :
    Furnished s presets d'.interpreter := by
  obtain ⟨provider, hopen, hprovider⟩ := h.openFirst
  cases he with
  | unopened _ hopen' => cases hopen.symm.trans hopen'
  | unstarted _ hopen' | opened _ hopen' =>
    cases hopen.symm.trans hopen'
    exact ⟨h.presets, hprovider⟩
  | _ => exact ⟨h.presets, h.provider⟩

theorem run {t : Sitting MemoryBiases} (h : Furnished s presets t.desk.interpreter) (moves : List SittingMove) :
    Furnished s presets (t.run moves).desk.interpreter := by
  induction moves generalizing t with
  | nil => exact h
  | cons m rest ih =>
    refine ih (t := t.act m) ?_
    cases m with
    | handle c => exact h.effect (Desk.effect_handle c t.desk)
    | shutdown | meanwhile => exact ⟨h.presets, h.provider⟩

/-- The biases of a new camera are prepared. -/
theorem prepareBiases_source (i : Interpreter MemoryBiases) (hs : s.biases = true) (id : String) :
    ∃ m, MemoryBiases.standard.AfterPresets i.presets m ∧ Desk.prepareBiases i (Synthetic.source s id) =
      (MemoryBiases.standard.presetReports i.presets ++ (if i.listOnOpen then BiasFacility.listing false m else []),
        { i with listOnOpen := false }, { Synthetic.source s id with biases := some m }) := by
  obtain ⟨m, happly, hafter⟩ := MemoryBiases.applyPresets_eq MemoryBiases.receptive_standard i.presets
  have hbiases : (Synthetic.source s id).biases = some .standard := if_pos hs
  refine ⟨m, hafter, ?_⟩
  rw [Desk.prepareBiases, hbiases]
  dsimp only
  rw [happly]
  cases i.listOnOpen with
  | false => simp
  | true => rfl

/-- Switching the camera on. -/
theorem acquisitionOn (h : Furnished s presets d.interpreter) (hs : s.biases = true)
    (hoff : d.shared.control.acquisition = false) :
    ∃ m, MemoryBiases.standard.AfterPresets presets m ∧
      (d.handle .acquisitionOn).1 = .ok (MemoryBiases.standard.presetReports presets ++
        (if d.interpreter.listOnOpen then BiasFacility.listing false m else []) ++ [Desk.openedLine s.geometry]) ∧
      (d.handle .acquisitionOn).2.interpreter.source.bind (·.biases) = some m := by
  obtain ⟨shared, i⟩ := d
  obtain ⟨provider, hopen, -⟩ := h.openFirst
  obtain rfl := h.presets
  obtain ⟨m, hafter, hprepare⟩ := prepareBiases_source { i with
    provider, selected := none
    subscriptions := i.subscriptions ++ [(shared.write (Control.acquisitionWrites s.geometry)).control.session] }
    hs Synthetic.deviceName
  have hgeometry : (Synthetic.source s Synthetic.deviceName).geometry = s.geometry := rfl
  refine ⟨m, hafter, ?_⟩
  simp only [Desk.handle, Desk.acquisitionOn] at hoff hopen ⊢
  rw [hoff, if_neg Bool.false_ne_true, hopen]
  dsimp only
  rw [hgeometry, hprepare]
  exact ⟨rfl, rfl⟩

end Furnished

/-- With a synthetic camera that has biases, whatever was done before: the camera can be switched on whenever it is off.
Whenever it is switched on, each bias that can be modified has the value of the last preset for it, brought into the
recommended range, and every other bias its usual value. Before the line that tells that the camera is on, the reply
reports each preset that was written, in order, and then lists the biases if that was asked for. -/
theorem Sitting.presets_hold (s : SyntheticSettings) (hs : s.biases = true) (shared : Shared)
    (i : Interpreter MemoryBiases) (hi : i.provider = Synthetic.provider s) (history : List SittingMove) :
    let d := ((start shared i).run history).desk
    (d.shared.control.acquisition = false → (d.handle .acquisitionOn).1.isOk = true) ∧
    ∀ lines d', d.handle .acquisitionOn = (.ok lines, d') →
      ∃ m, d'.interpreter.source.bind (·.biases) = some m ∧ m.infos = MemoryBiases.standard.infos ∧
        (∀ name, m.find? name =
          (MemoryBiases.standard.find? name).map fun b => { b with value := b.presetTo name i.presets }) ∧
        lines = MemoryBiases.standard.presetReports i.presets ++
          (if d.interpreter.listOnOpen then BiasFacility.listing false m else []) ++ [Desk.openedLine s.geometry] := by
  intro d
  have hstart : Furnished s i.presets (start shared i).desk.interpreter := ⟨rfl, i.provider.attempts, by rw [← hi]; rfl⟩
  have h : Furnished s i.presets d.interpreter := hstart.run history
  refine ⟨fun hoff => ?_, fun lines d' hopened => ?_⟩
  · obtain ⟨m, -, hreply, -⟩ := h.acquisitionOn hs hoff
    rw [hreply]
    rfl
  · obtain ⟨m, hafter, hreply, hsource⟩ := h.acquisitionOn hs (Desk.off_of_opened hopened)
    rw [hopened] at hreply hsource
    exact ⟨m, hsource, hafter.infos, hafter.values, Except.ok.inj hreply⟩

/-- Two presets for one bias, one for a bias that is fixed and one for a bias that does not exist. A bias was tuned
before the camera was switched off and on again. -/
theorem Sitting.presets_hold_reopened :
    let presets : List Preset := [("bias_fo", 100), ("bias_diff", 5), ("bias", 1), ("bias_fo", -3)]
    let i : Interpreter MemoryBiases := { Interpreter.new (Synthetic.provider .standard) ⟨"out"⟩ with presets }
    let history : List SittingMove :=
      [.handle .acquisitionOn, .handle (.setBias "bias_hpf" 80), .handle .acquisitionOff]
    let d := ((start (.initial 4) i).run history).desk
    ∃ lines d', d.handle .acquisitionOn = (.ok lines, d') ∧
      ∃ m, d'.interpreter.source.bind (·.biases) = some m ∧
        (m.find? "bias_fo").map (·.value) = some (-3) ∧ (m.find? "bias_hpf").map (·.value) = some 0 ∧
        lines = ["bias \"bias_fo\" updated: 0 -> 55 (requested 100, clamped)", "bias \"bias_fo\" updated: 55 -> -3",
          "Camera ON. Resolution: 640x480"] := by
  intro presets i history d
  have h := presets_hold .standard rfl (.initial 4) i rfl history
  obtain ⟨m, hsource, -, hvalues, hlines⟩ := h.2 _ _ rfl
  refine ⟨_, _, rfl, m, hsource, ?_, ?_, ?_⟩
  · rw [hvalues]
    decide +kernel
  · rw [hvalues]
    decide +kernel
  · decide +kernel

end EventCamera
