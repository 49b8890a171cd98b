import EventCamera.Console.Interpreter
import EventCamera.Proofs.Bias.Writes
/-!
# Tuning a bias step by step

The operator raises and lowers the selected bias by the chosen step, and goes up and down in the list of steps. The
device does this on 32-bit values: a sum stops at the ends of the value type and is then clamped to what is recommended.
`Walk` does it on integers, where nothing overflows.

`Desk.tuned_exactly`: every such command succeeds, and the position in the list and the value of the bias are those of
the walk. `Desk.Tunable.turn` is one command.
-/

namespace EventCamera

/-- Where a walk has got to: the position in the list of steps, and the value. -/
structure Walk where
  position : Int
  value : Int
  deriving DecidableEq, Repr

namespace Walk

/-- What the operator can do to tune the selected bias. -/
inductive Turn where
  | raise
  | lower
  | stepUp
  | stepDown
  deriving DecidableEq, Repr

def Turn.command : Turn → Command
  | raise => .raiseBias
  | lower => .lowerBias
  | stepUp => .stepUp
  | stepDown => .stepDown

variable {steps : List Int} {lo hi : Int} {w : Walk}

/-- The chosen step. -/
def step (steps : List Int) (w : Walk) : Int := steps.getD w.position.toNat 0

/-- One turn. The position stays in the list, and the value goes to the nearest one between the bounds. -/
def turn (steps : List Int) (lo hi : Int) (w : Walk) : Turn → Walk
  | .raise => { w with value := min hi (max lo (w.value + w.step steps)) }
  | .lower => { w with value := min hi (max lo (w.value - w.step steps)) }
  | .stepUp => { w with position := max 0 (min ((steps.length : Int) - 1) (w.position + 1)) }
  | .stepDown => { w with position := max 0 (min ((steps.length : Int) - 1) (w.position - 1)) }

def run (steps : List Int) (lo hi : Int) (w : Walk) (turns : List Turn) : Walk := turns.foldl (turn steps lo hi) w

/-- Raising from a value between the bounds goes up to the upper one and stays there. -/
theorem run_raise (hstep : 0 ≤ w.step steps) (hlo : lo ≤ w.value) (hhi : w.value ≤ hi) (n : Nat) :
    w.run steps lo hi (List.replicate n .raise) = { w with value := min hi (w.value + n * w.step steps) } := by
  induction n generalizing w with
  | zero =>
    have hstay : min hi (w.value + (0 : Nat) * w.step steps) = w.value := by
      rw [Int.ofNat_zero, Int.zero_mul]
      omega
    rw [hstay]
    rfl
  | succ n ih =>
    have hsame : (w.turn steps lo hi .raise).step steps = w.step steps := rfl
    have hraised : (w.turn steps lo hi .raise).value = min hi (w.value + w.step steps) := by
      simp only [turn]
      omega
    have hfar : (0 : Int) ≤ n * w.step steps := Int.mul_nonneg (Int.natCast_nonneg n) hstep
    have hrest := ih (w := w.turn steps lo hi .raise) (hsame ▸ hstep) (by omega) (by omega)
    rw [hsame, hraised] at hrest
    have hsum : min hi (min hi (w.value + w.step steps) + n * w.step steps) =
        min hi (w.value + (n + 1 : Nat) * w.step steps) := by
      rw [Int.natCast_add, Int.add_mul]
      omega
    rw [hsum] at hrest
    exact hrest

end Walk

/-! ## The arithmetic of the device -/

/-- A step down is the opposite of the step, unless that is beyond the value type. -/
theorem BiasValue.toInt_neg_one_mul {step : BiasValue} (h : step ≠ Int32.minValue) :
    (-1 * step).toInt = -step.toInt := by
  have hmin : Int32.minValue.toInt = -2147483648 := by decide
  have hmax : Int32.maxValue.toInt = 2147483647 := by decide
  have hle := step.toInt_le
  have hge := step.minValue_le_toInt
  have hne : step.toInt ≠ -2147483648 := fun heq => h (Int32.toInt_inj.1 (heq.trans hmin.symm))
  rw [Int32.neg_mul, Int32.one_mul, Int32.toInt_neg, Int.bmod_eq_of_le] <;> omega

/-- Clamping makes up for a sum that stopped at an end of the value type. -/
theorem BiasRange.toInt_clamp_of_stopped {r : BiasRange} (h : r.min ≤ r.max) {value : BiasValue} {sum : Int}
    (hvalue : value.toInt = Max.max Int32.minValue.toInt (Min.min sum Int32.maxValue.toInt)) :
    (r.clamp value).toInt = Min.min r.max.toInt (Max.max r.min.toInt sum) := by
  have hmin := r.min.minValue_le_toInt
  have hmax := r.max.toInt_le
  have horder := Int32.le_iff_toInt_le.1 h
  rw [toInt_clamp h, hvalue]
  omega

namespace StepSelector

variable (s : StepSelector)

theorem options_up : s.up.options = s.options := by
  unfold up
  split <;> rfl

theorem index_up : (s.up.index : Int) = max (0 : Int) (min ((s.options.size : Int) - 1) ((s.index : Int) + 1)) := by
  have hlt := s.index_lt
  unfold up
  split
  · dsimp only
    omega
  · omega

theorem index_down : (s.down.index : Int) = max (0 : Int) (min ((s.options.size : Int) - 1) ((s.index : Int) - 1)) := by
  have hlt := s.index_lt
  unfold down
  dsimp only
  omega

theorem current_mem : s.current ∈ s.options := Array.getElem_mem s.index_lt

end StepSelector

/-! ## Commands -/

namespace Desk

/-- Carries out commands one after the other. -/
def carryOut {δ : Type} [BiasFacility δ] (d : Desk δ) : List Command → List Reply × Desk δ
  | [] => ([], d)
  | c :: rest =>
    let (reply, d) := d.handle c
    let (replies, d) := d.carryOut rest
    (reply :: replies, d)

/-- A camera with biases in memory is on, and the selected bias can be modified. All that is recommended for it is
allowed, writes work, and every step has an opposite. -/
structure Tunable (d : Desk MemoryBiases) (name : String) (b : MemoryBias) : Prop where
  acquisition : d.shared.control.acquisition = true
  selected : d.interpreter.selected = some name
  biases : ∃ m, d.interpreter.source.bind (·.biases) = some m ∧ m.find? name = some b ∧ m.failWrites = false
  modifiable : b.info.modifiable = true
  recommended : b.info.recommended.min ≤ b.info.recommended.max
  allowed_min : b.info.allowed.min ≤ b.info.recommended.min
  allowed_max : b.info.recommended.max ≤ b.info.allowed.max
  steps : ∀ step ∈ d.interpreter.steps.options, step ≠ Int32.minValue

/-- The steps on offer, as integers. -/
def stepsOnOffer (d : Desk MemoryBiases) : List Int := d.interpreter.steps.options.toList.map (·.toInt)

/-- Where the tuning of a bias has got to. -/
def walk (d : Desk MemoryBiases) (b : MemoryBias) : Walk := ⟨d.interpreter.steps.index, b.value.toInt⟩

variable {d d' : Desk MemoryBiases} {name : String} {b b' : MemoryBias}

theorem step_walk (d : Desk MemoryBiases) (b : MemoryBias) :
    (d.walk b).step d.stepsOnOffer = d.interpreter.steps.current.toInt := by
  have hlt : d.interpreter.steps.index < d.interpreter.steps.options.size := d.interpreter.steps.index_lt
  simp [Walk.step, walk, stepsOnOffer, StepSelector.current, List.getD_eq_getElem?_getD, hlt]

/-- The bias has gone on from `b` to `b'`, to where the walk has got to, and can still be tuned. -/
structure Tuned (d d' : Desk MemoryBiases) (name : String) (b b' : MemoryBias) (w : Walk) : Prop where
  tunable : d'.Tunable name b'
  info : b'.info = b.info
  options : d'.interpreter.steps.options = d.interpreter.steps.options
  walk : d'.walk b' = w

/-- The selected bias takes the value that the walk goes to. -/
theorem Tunable.adjustSelected (h : d.Tunable name b) {direction : BiasValue} {sum : Int}
    (hsum : sum = b.value.toInt + (direction * d.interpreter.steps.current).toInt) :
    ∃ lines d' b', d.adjustSelected direction = (.ok lines, d') ∧
      d.Tuned d' name b b' { d.walk b with
        value := min b.info.recommended.max.toInt (max b.info.recommended.min.toInt sum) } := by
  obtain ⟨m, hbiases, hb, hworks⟩ := h.biases
  have hfacility : d.facility = .ok m := by
    rw [facility, h.acquisition, if_pos rfl, hbiases]
  obtain ⟨value, hvalue, hadjust⟩ :=
    BiasRequest.perform_eq name (.adjust (direction * d.interpreter.steps.current)) hb
  have hclamp := BiasRange.toInt_clamp_of_stopped h.recommended (hvalue.trans (by rw [BiasRequest.asked, ← hsum]))
  rcases m.apply_cases name value with ⟨hnone, -⟩ | ⟨b', hb', hfixed, -⟩ | ⟨b', e, hb', -, hwhy, -⟩ |
    ⟨b', hb', -, -, -, happly⟩
  · rw [hb] at hnone
    cases hnone
  · obtain rfl : b = b' := Option.some.inj (hb ▸ hb')
    rw [h.modifiable] at hfixed
    cases hfixed
  · obtain rfl : b = b' := Option.some.inj (hb ▸ hb')
    rw [hworks, MemoryBiases.allowed_clamp h.recommended h.allowed_min h.allowed_max] at hwhy
    rcases hwhy with hwhy | hwhy <;> cases hwhy
  · obtain rfl : b = b' := Option.some.inj (hb ▸ hb')
    -- The device holds the value now.
    let target := b.info.recommended.clamp value
    let m' : MemoryBiases := { m with setCalls := m.setCalls + 1 }.replaceValue name target
    have hholds : m'.find? name = some { b with value := target } := by
      have hbefore : ({ m with setCalls := m.setCalls + 1 } : MemoryBiases).find? name = some b := hb
      rw [MemoryBiases.find?_replaceValue, hbefore, Option.map_some, if_pos rfl]
    have hsource : (d.putFacility m').interpreter.source.bind (·.biases) = some m' := by
      obtain ⟨source, hs, -⟩ := Option.bind_eq_some_iff.1 hbiases
      simp [putFacility, hs]
    have hadjusted : ∃ lines, d.adjustSelected direction = (.ok lines, d.putFacility m') := by
      rw [Desk.adjustSelected, hfacility]
      dsimp only
      rw [h.selected]
      dsimp only
      rw [show BiasFacility.adjust name _ m = _ from hadjust, happly]
      exact ⟨_, rfl⟩
    obtain ⟨lines, hadjusted⟩ := hadjusted
    refine ⟨lines, _, { b with value := target }, hadjusted, ⟨?_, rfl, rfl, ?_⟩⟩
    · exact ⟨h.acquisition, h.selected, ⟨m', hsource, hholds, hworks⟩, h.modifiable, h.recommended, h.allowed_min,
        h.allowed_max, h.steps⟩
    · exact congrArg (Walk.mk _) hclamp

theorem Tunable.moveStep (h : d.Tunable name b) (move : StepSelector → StepSelector) {position : Int}
    (hoptions : (move d.interpreter.steps).options = d.interpreter.steps.options)
    (hposition : ((move d.interpreter.steps).index : Int) = position) :
    ∃ lines d', d.moveStep move = (.ok lines, d') ∧ d.Tuned d' name b b { d.walk b with position } := by
  refine ⟨_, _, rfl, ⟨?_, rfl, hoptions, congrArg (Walk.mk · _) hposition⟩⟩
  refine ⟨h.acquisition, h.selected, h.biases, h.modifiable, h.recommended, h.allowed_min, h.allowed_max, ?_⟩
  intro step hstep
  exact h.steps step (hoptions ▸ hstep)

/-- Every command succeeds and is a turn of the walk. -/
theorem Tunable.turn (h : d.Tunable name b) (t : Walk.Turn) :
    ∃ lines d' b', d.handle t.command = (.ok lines, d') ∧ d.Tuned d' name b b'
      ((d.walk b).turn d.stepsOnOffer b.info.recommended.min.toInt b.info.recommended.max.toInt t) := by
  have hstep := d.step_walk b
  have hsize : (d.stepsOnOffer.length : Int) = d.interpreter.steps.options.size := by simp [stepsOnOffer]
  cases t with
  | raise =>
    refine h.adjustSelected ?_
    rw [hstep, Int32.one_mul]
    rfl
  | lower =>
    refine h.adjustSelected ?_
    rw [hstep, BiasValue.toInt_neg_one_mul (h.steps _ (StepSelector.current_mem _)), ← Int.sub_eq_add_neg]
    rfl
  | stepUp =>
    obtain ⟨lines, d', hmoved⟩ := h.moveStep .up (StepSelector.options_up _) (StepSelector.index_up _)
    rw [← hsize] at hmoved
    exact ⟨lines, d', b, hmoved⟩
  | stepDown =>
    obtain ⟨lines, d', hmoved⟩ := h.moveStep .down rfl (StepSelector.index_down _)
    rw [← hsize] at hmoved
    exact ⟨lines, d', b, hmoved⟩

/-- Whatever the turns, every command succeeds, and together they are the walk. -/
theorem Tunable.run (h : d.Tunable name b) (turns : List Walk.Turn) :
    ((d.carryOut (turns.map Walk.Turn.command)).1.length = turns.length ∧
      ∀ reply ∈ (d.carryOut (turns.map Walk.Turn.command)).1, ∃ lines, reply = .ok lines) ∧
    ∃ b', d.Tuned (d.carryOut (turns.map Walk.Turn.command)).2 name b b'
      ((d.walk b).run d.stepsOnOffer b.info.recommended.min.toInt b.info.recommended.max.toInt turns) := by
  induction turns generalizing d b with
  | nil => exact ⟨⟨rfl, nofun⟩, b, h, rfl, rfl, rfl⟩
  | cons t rest ih =>
    obtain ⟨lines, d', b', hhandle, htuned⟩ := h.turn t
    obtain ⟨⟨hlength, hreplies⟩, b'', hrest⟩ := ih htuned.tunable
    have hoffer : d'.stepsOnOffer = d.stepsOnOffer := by rw [stepsOnOffer, htuned.options, ← stepsOnOffer]
    rw [List.map_cons, carryOut, hhandle]
    refine ⟨⟨congrArg (· + 1) hlength, ?_⟩, b'', hrest.tunable, hrest.info.trans htuned.info,
      hrest.options.trans htuned.options, ?_⟩
    · intro reply hreply
      rcases List.mem_cons.1 hreply with rfl | hreply
      · exact ⟨lines, rfl⟩
      · exact hreplies reply hreply
    · rw [Walk.run, List.foldl_cons, ← htuned.walk, ← htuned.info, ← hoffer]
      exact hrest.walk

/-- Tuning is exact. While the camera is on, every command that tunes the selected bias succeeds, the position in the
list of steps is the one of the walk, and the bias has the value of the walk, whatever its value was at the beginning
and however close to the ends of the value type the sums come. Raising it `n` times from a value that is recommended
goes up by `n` steps, or to the greatest value that is. -/
theorem tuned_exactly (h : d.Tunable name b) (turns : List Walk.Turn) :
    let lo := b.info.recommended.min.toInt
    let hi := b.info.recommended.max.toInt
    let replies := (d.carryOut (turns.map Walk.Turn.command)).1
    let d' := (d.carryOut (turns.map Walk.Turn.command)).2
    (replies.length = turns.length ∧ ∀ reply ∈ replies, ∃ lines, reply = .ok lines) ∧
    ∃ b', d'.Tunable name b' ∧ b'.info = b.info ∧ d'.stepsOnOffer = d.stepsOnOffer ∧
      d'.walk b' = (d.walk b).run d.stepsOnOffer lo hi turns ∧
      ∀ n, turns = List.replicate n .raise → 0 ≤ d.interpreter.steps.current.toInt →
        b.info.recommended.contains b.value = true →
        b'.value.toInt = min hi (b.value.toInt + n * d.interpreter.steps.current.toInt) := by
  intro lo hi replies d'
  obtain ⟨hsucceeds, b', htuned⟩ := h.run turns
  refine ⟨hsucceeds, b', htuned.tunable, htuned.info, ?_, htuned.walk, ?_⟩
  · rw [stepsOnOffer, htuned.options, ← stepsOnOffer]
  · rintro n rfl hstep hcontains
    obtain ⟨hlo, hhi⟩ := (BiasRange.contains_iff _ _).1 hcontains
    rw [← step_walk d b] at hstep ⊢
    exact congrArg Walk.value (htuned.walk.trans (Walk.run_raise hstep hlo hhi n))

/-- A value near the end of the value type and a step of that size, with a negative one beside it. -/
theorem tuned_exactly_near_the_end :
    let range : BiasRange := ⟨-100, 2147483647⟩
    let b : MemoryBias := ⟨2147483000, ⟨range, range, true, "", ""⟩⟩
    let camera : Source MemoryBiases := ⟨"camera", ⟨2, 1⟩, some (.insert "gain" b.value b.info .empty), none, true⟩
    let d : Desk MemoryBiases :=
      ⟨(Shared.initial 4).write [.acquisition true], { Interpreter.new .none ⟨"out"⟩ with
        source := some camera, selected := some "gain", steps := .ofList [2147483647, -7] }⟩
    let turns : List Walk.Turn := [.raise, .stepUp, .stepUp, .raise]
    d.Tunable "gain" b ∧ ∃ b', (d.carryOut (turns.map Walk.Turn.command)).2.walk b' = ⟨1, 2147483640⟩ := by
  intro range b camera d turns
  have h : d.Tunable "gain" b := by
    refine ⟨rfl, rfl, ⟨_, rfl, rfl, rfl⟩, rfl, by decide, by decide, by decide, ?_⟩
    intro step hstep
    have hstep : step = 2147483647 ∨ step = -7 := by simpa [d, StepSelector.ofList] using hstep
    rcases hstep with rfl | rfl
    · decide +kernel
    · decide +kernel
  obtain ⟨-, b', -, -, -, hwalk, -⟩ := tuned_exactly h turns
  have hend : Walk.run [2147483647, -7] (-100) 2147483647 ⟨0, 2147483000⟩ turns = ⟨1, 2147483640⟩ := by decide +kernel
  exact ⟨h, b', hwalk.trans hend⟩

end Desk

end EventCamera
