import EventCamera.Proofs.Window.Drawing
import EventCamera.Window.Manager
/-!
# Which windows an event closes

`Window.closePast_eq` gives the closing loop in closed form: an event at time `t` closes `w.closings d t`
windows, the current one and those it skipped, and falls into the next. `WindowManager.processAll` feeds a
whole stream of events, each with the recording flag it arrives under.
-/

namespace EventCamera

namespace Window

variable {d : WindowLength} {recording : Bool} {t : Timestamp} {w : Window}

/-! ## Moving on -/

@[simp] theorem stop_advance : (w.advance d recording).stop = w.stop.plus d := rfl

@[simp] theorem recording_advance : (w.advance d recording).recording = recording := rfl

@[simp] theorem geometry_canvas_advance : (w.advance d recording).canvas.geometry = w.canvas.geometry := by
  unfold advance; dsimp only; split <;> rfl

theorem Drawn.advance_drawn {shown : List Event} (h : w.Drawn shown) : (w.advance d recording).Drawn [] :=
  h.advance d recording ▸ drawn_fresh ..

/-- The window `k` places after this one. -/
def ahead (d : WindowLength) (recording : Bool) (k : Nat) (w : Window) : Window :=
  (advance d recording)^[k] w

@[simp] theorem ahead_zero : w.ahead d recording 0 = w := rfl

theorem ahead_succ (k : Nat) : w.ahead d recording (k + 1) = (w.ahead d recording k).advance d recording :=
  Function.iterate_succ_apply' ..

theorem ahead_succ_eq (k : Nat) : w.ahead d recording (k + 1) = (w.advance d recording).ahead d recording k :=
  Function.iterate_succ_apply ..

theorem recording_ahead (k : Nat) : (w.ahead d recording (k + 1)).recording = recording := by
  rw [ahead_succ, recording_advance]

theorem index_ahead (k : Nat) : (w.ahead d recording k).index = w.index + UInt64.ofNat k := by
  induction k with
  | zero => simp
  | succ k ih => rw [ahead_succ, index_advance, ih, UInt64.ofNat_add, UInt64.add_assoc]; rfl

theorem geometry_canvas_ahead (k : Nat) : (w.ahead d recording k).canvas.geometry = w.canvas.geometry := by
  induction k with
  | zero => rfl
  | succ k ih => rw [ahead_succ, geometry_canvas_advance, ih]

theorem drawn_ahead {shown : List Event} (h : w.Drawn shown) (k : Nat) :
    (w.ahead d recording (k + 1)).Drawn [] := by
  induction k with
  | zero => rw [ahead_succ]; exact h.advance_drawn
  | succ k ih => rw [ahead_succ]; exact ih.advance_drawn

theorem stop_ahead (hw : w.stop = w.start.plus d) (k : Nat) :
    (w.ahead d recording k).stop = (w.ahead d recording k).start.plus d := by
  cases k with
  | zero => exact hw
  | succ k => rw [ahead_succ, stop_advance, start_advance]

/-- The windows ahead follow each other without a gap, up to the end of the clock. -/
theorem start_ahead (hw : w.stop = w.start.plus d) (k : Nat)
    (h : w.start.toInt + k * d.micros.toInt ≤ Timestamp.last.toInt) :
    (w.ahead d recording k).start.toInt = w.start.toInt + k * d.micros.toInt := by
  induction k with
  | zero => simp
  | succ k ih =>
    have hd := d.one_le
    have hm : ((k + 1 : Nat) : Int) * d.micros.toInt = k * d.micros.toInt + d.micros.toInt := by
      rw [Int.natCast_succ, Int.add_mul, Int.one_mul]
    rw [hm] at h ⊢
    rw [ahead_succ, start_advance, stop_ahead hw, Timestamp.toInt_plus, ih (by omega)]
    omega

/-! ## The closing loop -/

/-- Number of windows that an event at time `t` closes, this one the first. -/
def closings (d : WindowLength) (t : Timestamp) (w : Window) : Nat :=
  ((min t.toInt (Timestamp.last.toInt - 1) - w.start.toInt) / d.micros.toInt).toNat

theorem closings_of_not_closes (hw : w.stop = w.start.plus d) (h : ¬w.Closes t) : w.closings d t = 0 := by
  have hd := d.one_le
  have hs : w.stop.toInt = min (w.start.toInt + d.micros.toInt) Timestamp.last.toInt := by
    rw [hw, Timestamp.toInt_plus]
  rw [Closes, Int64.le_iff_toInt_le, Int64.lt_iff_toInt_lt] at h
  have hq : (min t.toInt (Timestamp.last.toInt - 1) - w.start.toInt) / d.micros.toInt < 1 :=
    (Int.ediv_lt_iff_lt_mul (by omega)).2 (by omega)
  rw [closings]
  omega

theorem closings_of_closes (recording : Bool) (hw : w.stop = w.start.plus d) (h : w.Closes t) :
    w.closings d t = (w.advance d recording).closings d t + 1 := by
  have hd := d.one_le
  have hs : w.stop.toInt = min (w.start.toInt + d.micros.toInt) Timestamp.last.toInt := by
    rw [hw, Timestamp.toInt_plus]
  rw [Closes, Int64.le_iff_toInt_le, Int64.lt_iff_toInt_lt] at h
  have hstep : min t.toInt (Timestamp.last.toInt - 1) - w.start.toInt =
      min t.toInt (Timestamp.last.toInt - 1) - w.stop.toInt + 1 * d.micros.toInt := by omega
  have hpos : 0 ≤ (min t.toInt (Timestamp.last.toInt - 1) - w.stop.toInt) / d.micros.toInt :=
    Int.ediv_nonneg (by omega) (by omega)
  rw [closings, closings, start_advance, hstep, Int.add_mul_ediv_right _ _ (by omega)]
  omega

/-- The event closes this window and those after it, as many as `closings` tells, and falls into the next. -/
theorem closePast_eq (hw : w.stop = w.start.plus d) (closed : Array Window) :
    w.closePast d recording t closed =
      (closed ++ ((List.range (w.closings d t)).map (w.ahead d recording ·)).toArray,
        w.ahead d recording (w.closings d t)) := by
  induction hn : w.closings d t generalizing w closed with
  | zero =>
    have h : ¬w.Closes t := fun h => by
      rw [closings_of_closes recording hw h] at hn
      exact Nat.succ_ne_zero _ hn
    simp [closePast_of_not_closes closed h]
  | succ n ih =>
    have h : w.Closes t := by
      by_contra h
      rw [closings_of_not_closes hw h] at hn
      exact Nat.succ_ne_zero _ hn.symm
    have hn' : (w.advance d recording).closings d t = n := by
      rw [closings_of_closes recording hw h] at hn
      exact Nat.succ.inj hn
    rw [closePast_of_closes closed h, ih (by simp) _ hn', List.range_succ_eq_map]
    simp [ahead_succ_eq, Function.comp_def]

end Window

namespace WindowManager

/-! ## Feeding events -/

variable {m : WindowManager} {w : Window}

theorem process_of_isEmpty (h : m.geometry.isEmpty = true) (e : Event) (recording : Bool) :
    m.process e recording = ⟨#[], .noGeometry, m⟩ := by
  obtain ⟨length, geometry, current, nextIndex⟩ := m
  simp only [process]
  rw [if_pos h]

/-- The first event opens a window at its own time. -/
theorem process_of_idle (hg : m.geometry.isEmpty = false) (hc : m.current = none) (e : Event)
    (recording : Bool) :
    m.process e recording =
      let opened := Window.fresh m.length m.geometry m.nextIndex e.t recording
      ⟨#[], if (opened.add e).1 then .accepted else .outOfBounds,
        { m with current := some (opened.add e).2, nextIndex := opened.index + 1 }⟩ := by
  obtain ⟨length, geometry, current, nextIndex⟩ := m
  subst hc
  simp only [process]
  rw [if_neg (by simpa using hg)]

/-- An event closes the current window and those it skips, and is added to the one it falls into. -/
theorem process_of_current (hg : m.geometry.isEmpty = false) (hc : m.current = some w)
    (hw : w.stop = w.start.plus m.length) (e : Event) (recording : Bool) :
    m.process e recording =
      let n := w.closings m.length e.t
      let reached := w.ahead m.length recording n
      ⟨((List.range n).map (w.ahead m.length recording ·)).toArray,
        if (reached.add e).1 then .accepted else .outOfBounds,
        { m with current := some (reached.add e).2, nextIndex := reached.index + 1 }⟩ := by
  obtain ⟨length, geometry, current, nextIndex⟩ := m
  subst hc
  simp only [process]
  rw [if_neg (by simpa using hg), Window.closePast_eq hw]
  simp

/-- What feeding a stream gives: the closed windows in order, what became of each event, and the manager
after the last one. -/
structure Run where
  closed : List Window
  outcomes : List Outcome
  manager : WindowManager

/-- Feeds a stream of events, each with the recording flag it arrives under. -/
def processAll (m : WindowManager) : List (Event × Bool) → Run
  | [] => ⟨[], [], m⟩
  | (e, recording) :: stream =>
    let step := m.process e recording
    let run := step.manager.processAll stream
    ⟨step.closed.toList ++ run.closed, step.outcome :: run.outcomes, run.manager⟩

theorem processAll_concat (m : WindowManager) (stream : List (Event × Bool)) (e : Event) (recording : Bool) :
    m.processAll (stream ++ [(e, recording)]) =
      let run := m.processAll stream
      let step := run.manager.process e recording
      ⟨run.closed ++ step.closed.toList, run.outcomes ++ [step.outcome], step.manager⟩ := by
  induction stream generalizing m with
  | nil => simp [processAll]
  | cons p stream ih =>
    simp only [List.cons_append, processAll, ih]
    simp

end WindowManager

end EventCamera
