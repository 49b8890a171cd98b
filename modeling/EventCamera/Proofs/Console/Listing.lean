import EventCamera.Camera.Synthetic
import EventCamera.Proofs.Console.Sitting
/-!
# The listing asked for

The console can be asked to list the biases when a camera is switched on. The request is taken back as soon as a camera
with biases has been opened, whether it then starts or not (`Sitting.listOnOpen_run`).

`Sitting.listing_once`: the biases are listed where such a camera is switched on for the first time, and never again. If
one was opened before and did not start, they are not listed at all; `Sitting.listing_lost` is the shortest such case.
-/

namespace EventCamera

/-! ## Lines of a reply -/

namespace BiasFacility

variable {δ : Type} [BiasFacility δ]

/-- The line that a listing begins with. -/
def isHeading (line : String) : Bool :=
  line == "Available biases:" || line == "No biases reported by the camera."

theorem exists_heading (verbose : Bool) (d : δ) : ∃ line ∈ listing verbose d, isHeading line = true := by
  unfold listing
  split
  · exact ⟨_, List.mem_cons_self, by decide⟩
  · exact ⟨_, List.mem_cons_self, by decide⟩

theorem isHeading_of_head {line : String} {c : Char} (hc : line.toList.head? = some c) (hfirst : c ≠ 'A' ∧ c ≠ 'N') :
    isHeading line = false := by
  rw [← Bool.not_eq_true]
  intro h
  rcases Bool.or_eq_true_iff.1 h with h | h
  · rw [beq_iff_eq.1 h] at hc
    exact hfirst.1 (Option.some.inj hc).symm
  · rw [beq_iff_eq.1 h] at hc
    exact hfirst.2 (Option.some.inj hc).symm

theorem isHeading_text (change : BiasChange) : isHeading change.text = false := by
  refine isHeading_of_head (c := 'b') ?_ (by decide)
  unfold BiasChange.text
  dsimp only
  split <;> split <;> simp

/-- Lines without a heading hold no listing. -/
theorem no_listing_within {lines : List String} (h : ∀ line ∈ lines, isHeading line = false) (verbose : Bool) (d : δ) :
    ¬listing verbose d <:+: lines := by
  intro hwithin
  obtain ⟨line, hline, hheading⟩ := exists_heading verbose d
  rw [h line (hwithin.subset hline)] at hheading
  cases hheading

end BiasFacility

namespace Desk

open BiasFacility

variable {δ : Type} {d : Desk δ}

/-- Whether switching the camera on finds one that exposes biases. -/
def exposes (d : Desk δ) : Bool :=
  !d.shared.control.acquisition &&
    match d.interpreter.provider.openFirst.1 with
    | .ok source => source.biases.isSome
    | .error _ => false

theorem exposes_iff : d.exposes = true ↔ d.shared.control.acquisition = false ∧
    ∃ source provider biases, d.interpreter.provider.openFirst = (.ok source, provider) ∧
      source.biases = some biases := by
  unfold exposes
  rcases d.interpreter.provider.openFirst with ⟨_ | source, provider⟩
  · simp
  · simp [Option.isSome_iff_exists]

theorem isHeading_openedLine (g : Geometry) : isHeading (openedLine g) = false := by
  refine isHeading_of_head (c := 'C') ?_ (by decide)
  unfold openedLine
  simp only [String.toList_append, List.append_assoc, List.head?_append]
  simp

variable [BiasFacility δ]

theorem isHeading_of_mem_applyPresets {presets : List (String × BiasValue)} {biases : δ} {line : String}
    (h : line ∈ (applyPresets presets biases).1) : isHeading line = false := by
  induction presets generalizing biases with
  | nil => cases h
  | cons p rest ih =>
    obtain ⟨name, value⟩ := p
    unfold applyPresets at h
    split at h
    · rcases List.mem_cons.1 h with rfl | h
      · exact isHeading_text _
      · exact ih h
    · exact ih h

/-! ## Switching the camera on -/

/-- Whether switching the camera on finds one that exposes biases, and it starts. -/
def serves (d : Desk δ) : Bool := d.exposes && (d.handle .acquisitionOn).1.isOk

/-- Whether switching the camera on finds one that exposes biases, and it does not start. -/
def wastes (d : Desk δ) : Bool := d.exposes && !(d.handle .acquisitionOn).1.isOk

/-- Switching the camera on lists biases. -/
def ShowsListing (d : Desk δ) : Prop :=
  ∃ lines, ∃ biases : δ, (d.handle .acquisitionOn).1 = .ok lines ∧ listing false biases <:+: lines

/-- A camera with biases is opened. The request is taken back; if the camera starts, the listing stands before the last
line of the reply, provided that it was asked for. -/
theorem acquisitionOn_of_exposes (h : d.exposes = true) :
    (d.handle .acquisitionOn).2.interpreter.listOnOpen = false ∧
    ((∃ e, (d.handle .acquisitionOn).1 = .error e) ∨
      ∃ reports biases last, (d.handle .acquisitionOn).1 =
          .ok (reports ++ (if d.interpreter.listOnOpen then listing false biases else []) ++ [last]) ∧
        (∀ line ∈ reports ++ [last], isHeading line = false) ∧
        (d.handle .acquisitionOn).2.interpreter.source.bind (·.biases) = some biases) := by
  obtain ⟨hoff, source, provider, biases, hopen, hbiases⟩ := exposes_iff.1 h
  have hreports : ∀ line ∈ (applyPresets d.interpreter.presets biases).1, isHeading line = false := fun _ =>
    isHeading_of_mem_applyPresets
  rcases hpresets : applyPresets d.interpreter.presets biases with ⟨reports, biases'⟩
  rw [hpresets] at hreports
  simp only [handle, acquisitionOn, hoff, Bool.false_eq_true, if_false, hopen, prepareBiases, hbiases, hpresets]
  split
  · exact ⟨rfl, .inl ⟨_, rfl⟩⟩
  · next started hstart =>
    refine ⟨rfl, .inr ⟨reports, biases', openedLine started.geometry, ?_, ?_, ?_⟩⟩
    · cases d.interpreter.listOnOpen <;> simp
    · intro line hline
      rcases List.mem_append.1 hline with hline | hline
      · exact hreports line hline
      · rw [List.mem_singleton.1 hline]
        exact isHeading_openedLine _
    · rw [start_eq_ok hstart]
      rfl

/-- No camera with biases is opened. The request stands, and nothing is listed. -/
theorem acquisitionOn_of_not_exposes (h : d.exposes = false) :
    (d.handle .acquisitionOn).2.interpreter.listOnOpen = d.interpreter.listOnOpen ∧
    ∀ lines, (d.handle .acquisitionOn).1 = .ok lines → ∀ line ∈ lines, isHeading line = false := by
  unfold exposes at h
  simp only [handle, acquisitionOn]
  split
  · exact ⟨rfl, nofun⟩
  · next hoff =>
    rw [Bool.not_eq_true] at hoff
    split
    · exact ⟨rfl, nofun⟩
    · next source provider hopen =>
      have hnone : source.biases = none := by
        rw [hoff, hopen] at h
        simpa using h
      simp only [prepareBiases, hnone]
      split
      · exact ⟨rfl, nofun⟩
      · refine ⟨rfl, ?_⟩
        rintro _ ⟨⟩ line hline
        rcases List.mem_cons.1 hline with rfl | hline
        · decide
        · rw [List.mem_singleton.1 hline]
          exact isHeading_openedLine _

/-- A camera with biases starts, and they are asked for: they are listed before the last line. -/
theorem reply_of_serves (h : d.serves = true) (hasked : d.interpreter.listOnOpen = true) :
    ∃ reports biases last, (d.handle .acquisitionOn).1 = .ok (reports ++ listing false biases ++ [last]) ∧
      (d.handle .acquisitionOn).2.interpreter.source.bind (·.biases) = some biases := by
  obtain ⟨hexposes, hok⟩ := Bool.and_eq_true_iff.1 h
  rcases (acquisitionOn_of_exposes hexposes).2 with ⟨e, herror⟩ | ⟨reports, biases, last, hlines, -, hheld⟩
  · rw [herror] at hok
    cases hok
  · rw [if_pos hasked] at hlines
    exact ⟨reports, biases, last, hlines, hheld⟩

/-- Biases are listed exactly if a camera that exposes them is switched on while they are asked for. -/
theorem showsListing_iff : d.ShowsListing ↔ d.serves = true ∧ d.interpreter.listOnOpen = true := by
  constructor
  · rintro ⟨lines, biases, hreply, hwithin⟩
    cases hexposes : d.exposes with
    | false => exact absurd hwithin (no_listing_within ((acquisitionOn_of_not_exposes hexposes).2 lines hreply) _ _)
    | true =>
      rcases (acquisitionOn_of_exposes hexposes).2 with ⟨e, herror⟩ | ⟨reports, biases', last, hlines, hplain, -⟩
      · rw [herror] at hreply
        cases hreply
      · refine ⟨by rw [serves, hexposes, hreply]; rfl, Decidable.byContradiction fun hunasked => ?_⟩
        rw [if_neg hunasked, hreply, List.append_nil] at hlines
        cases hlines
        exact no_listing_within hplain _ _ hwithin
  · rintro ⟨hserves, hasked⟩
    obtain ⟨reports, biases, last, hlines, -⟩ := reply_of_serves hserves hasked
    exact ⟨_, biases, hlines, reports, [last], rfl⟩

end Desk

/-! ## Every sitting -/

def SittingMove.switchesOn : SittingMove → Bool
  | .handle .acquisitionOn => true
  | _ => false

namespace Sitting

open BiasFacility

variable {δ : Type} [BiasFacility δ]

/-- Whether there was a command to switch the camera on at a desk like that. -/
def everSwitchedOn (like : Desk δ → Bool) (t : Sitting δ) : List SittingMove → Bool
  | [] => false
  | m :: rest => m.switchesOn && like t.desk || everSwitchedOn like (t.act m) rest

/-- A camera that exposes biases starts or does not. -/
theorem everSwitchedOn_exposes (t : Sitting δ) (moves : List SittingMove) :
    t.everSwitchedOn Desk.exposes moves = (t.everSwitchedOn Desk.serves moves || t.everSwitchedOn Desk.wastes moves) := by
  induction moves generalizing t with
  | nil => rfl
  | cons m rest ih =>
    rw [everSwitchedOn, everSwitchedOn, everSwitchedOn, ih, Desk.serves, Desk.wastes]
    cases m.switchesOn <;> cases t.desk.exposes <;> cases (t.desk.handle .acquisitionOn).1.isOk <;> simp

/-- Only opening a camera with biases takes the request back. -/
theorem listOnOpen_act (t : Sitting δ) (m : SittingMove) :
    (t.act m).desk.interpreter.listOnOpen =
      (t.desk.interpreter.listOnOpen && !(m.switchesOn && t.desk.exposes)) := by
  cases m with
  | shutdown | meanwhile => exact (Bool.and_true _).symm
  | handle c =>
    have heffect := Desk.effect_handle c t.desk
    show (t.desk.handle c).2.interpreter.listOnOpen = _
    cases hswitches : (SittingMove.handle c).switchesOn with
    | true =>
      obtain rfl : c = .acquisitionOn := by
        cases c <;> first | rfl | cases hswitches
      cases hexposes : t.desk.exposes with
      | false => simp [(Desk.acquisitionOn_of_not_exposes hexposes).1]
      | true => simp [(Desk.acquisitionOn_of_exposes hexposes).1]
    | false =>
      rw [Bool.false_and, Bool.not_false, Bool.and_true]
      generalize (t.desk.handle c).1 = reply at heffect
      generalize (t.desk.handle c).2 = d at heffect
      cases heffect with
      | unopened | unstarted | opened => cases hswitches
      | _ => rfl

theorem listOnOpen_run (t : Sitting δ) (moves : List SittingMove) :
    (t.run moves).desk.interpreter.listOnOpen =
      (t.desk.interpreter.listOnOpen && !t.everSwitchedOn Desk.exposes moves) := by
  induction moves generalizing t with
  | nil => exact (Bool.and_true _).symm
  | cons m rest ih =>
    show ((t.act m).run rest).desk.interpreter.listOnOpen = _
    rw [ih, listOnOpen_act, everSwitchedOn, Bool.not_or, Bool.and_assoc]

/-- The biases are to be listed when a camera is switched on, whatever is done at the console and whatever the provider
opens. Switching the camera on lists biases exactly if a camera that exposes them starts, this was never so before, and
no such camera was opened before that did not start. They are those of the camera that is then held, and stand before
the last line of the reply. -/
theorem listing_once (t : Sitting δ) (ht : t.desk.interpreter.listOnOpen = true) (history : List SittingMove) :
    let d := (t.run history).desk
    (d.ShowsListing ↔ d.serves = true ∧ t.everSwitchedOn Desk.serves history = false ∧
      t.everSwitchedOn Desk.wastes history = false) ∧
    (d.ShowsListing → ∃ reports biases last,
      (d.handle .acquisitionOn).1 = .ok (reports ++ listing false biases ++ [last]) ∧
      (d.handle .acquisitionOn).2.interpreter.source.bind (·.biases) = some biases) := by
  intro d
  have hasked : d.interpreter.listOnOpen = !t.everSwitchedOn Desk.exposes history := by
    rw [listOnOpen_run, ht, Bool.true_and]
  refine ⟨?_, fun hshows => ?_⟩
  · rw [Desk.showsListing_iff, hasked, everSwitchedOn_exposes, Bool.not_eq_true', Bool.or_eq_false_iff]
  · obtain ⟨hserves, hlist⟩ := Desk.showsListing_iff.1 hshows
    exact Desk.reply_of_serves hserves hlist

/-- First no camera can be opened, then one without biases is switched on and off, and then one with biases. -/
theorem listing_once_at_last :
    let camera (biases : Option MemoryBiases) : Source MemoryBiases := ⟨"camera", ⟨2, 1⟩, biases, none, false⟩
    let provider : Provider MemoryBiases := ⟨["camera"], fun n _ =>
      match n with
      | 0 => .error .alreadyRunning
      | 1 => .ok (camera none)
      | _ => .ok (camera (some .standard)), 0⟩
    let t := start (.initial 4) { Interpreter.new provider ⟨"out"⟩ with listOnOpen := true }
    let history : List SittingMove := [.handle .acquisitionOn, .handle .acquisitionOn, .handle .acquisitionOff]
    t.desk.interpreter.listOnOpen = true ∧ (t.run history).desk.ShowsListing := by
  intro camera provider t history
  have h := listing_once t rfl history
  exact ⟨rfl, h.1.2 ⟨by decide +kernel, by decide +kernel, by decide +kernel⟩⟩

/-- A camera with biases is opened and does not start. At the second attempt it starts, but nothing is listed. -/
theorem listing_lost :
    let provider : Provider MemoryBiases := ⟨["camera"], fun n _ =>
      .ok ⟨"camera", ⟨8, 8⟩, some .standard, if n = 0 then some .alreadyRunning else none, false⟩, 0⟩
    let t := start (.initial 4) { Interpreter.new provider ⟨"out"⟩ with listOnOpen := true }
    let history : List SittingMove := [.handle .acquisitionOn]
    let d := (t.run history).desk
    t.desk.interpreter.listOnOpen = true ∧ d.serves = true ∧ t.everSwitchedOn Desk.serves history = false ∧
      ¬d.ShowsListing := by
  intro provider t history d
  have hunasked : d.interpreter.listOnOpen = false := rfl
  refine ⟨rfl, by decide +kernel, by decide +kernel, fun hshows => ?_⟩
  rw [Desk.showsListing_iff, hunasked] at hshows
  cases hshows.2

end Sitting

end EventCamera
