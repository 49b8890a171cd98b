import EventCamera.Proofs.Window.Cadence
import EventCamera.Proofs.Window.Partition
/-!
# The passes of the closing loop

`LoopRun` is a run of the closing loop pass by pass, with nothing said about when it ends. It ends from any window
(`exists_loopRun`), since every pass moves the end of the window at hand towards the end of the clock. From a window
that a manager can hold it is known beforehand how many passes it takes and which windows they hand over
(`Cadence.closes_exactly`): the end of the clock, where the ends of windows are cut off, is never reached by them.
-/

namespace EventCamera

namespace Window

/-- A run of the closing loop from the windows handed over so far and the one at hand, with the number of its passes. A
pass hands over the window at hand and moves on; the run ends with a window that the event does not close. -/
inductive LoopRun (d : WindowLength) (recording : Bool) (t : Timestamp) :
    Nat → Array Window × Window → Array Window × Window → Prop where
  | ended {closed : Array Window} {w : Window} (h : ¬w.Closes t) : LoopRun d recording t 0 (closed, w) (closed, w)
  | pass {passes : Nat} {closed : Array Window} {w : Window} {last : Array Window × Window} (h : w.Closes t)
      (rest : LoopRun d recording t passes (closed.push w, w.advance d recording) last) :
      LoopRun d recording t (passes + 1) (closed, w) last

variable {d : WindowLength} {recording : Bool} {t : Timestamp} {w : Window} {closed : Array Window}

/-- The loop ends, wherever it begins. -/
theorem exists_loopRun (d : WindowLength) (recording : Bool) (t : Timestamp) (w : Window) (closed : Array Window) :
    ∃ passes, LoopRun d recording t passes (closed, w) (w.closePast d recording t closed) := by
  fun_induction closePast d recording t w closed with
  | case1 w closed h ih =>
    obtain ⟨passes, hrest⟩ := ih
    exact ⟨passes + 1, .pass h hrest⟩
  | case2 w closed h => exact ⟨0, .ended h⟩

theorem LoopRun.eq_closePast {passes : Nat} {last : Array Window × Window}
    (h : LoopRun d recording t passes (closed, w) last) : last = w.closePast d recording t closed := by
  generalize hfirst : (closed, w) = first at h
  induction h generalizing closed w with
  | ended h =>
    cases hfirst
    rw [closePast_of_not_closes _ h]
  | pass h _ ih =>
    cases hfirst
    rw [closePast_of_closes _ h]
    exact ih rfl

/-- Each pass hands over one window. -/
theorem LoopRun.size_eq {passes : Nat} {first last : Array Window × Window} (h : LoopRun d recording t passes first last) :
    last.1.size = first.1.size + passes := by
  induction h with
  | ended => rfl
  | pass _ _ ih =>
    simp only [Array.size_push] at ih ⊢
    omega

/-- From a window as long as it should be there is one run, and it takes as many passes as `closings` tells. -/
theorem loopRun_iff (hw : w.stop = w.start.plus d) {passes : Nat} {last : Array Window × Window} :
    LoopRun d recording t passes (#[], w) last ↔
      passes = w.closings d t ∧ last = w.closePast d recording t #[] := by
  have hcount : ∀ {passes last}, LoopRun d recording t passes (#[], w) last → passes = w.closings d t := by
    intro passes last h
    have hsize := h.size_eq
    rw [h.eq_closePast, closePast_eq hw] at hsize
    simpa using hsize.symm
  constructor
  · intro h
    exact ⟨hcount h, h.eq_closePast⟩
  · rintro ⟨rfl, rfl⟩
    obtain ⟨passes, h⟩ := exists_loopRun d recording t w #[]
    rwa [← hcount h]

theorem closings_eq (d : WindowLength) (t : Timestamp) (w : Window) :
    (w.closings d t : Int) = max 0 ((min t.toInt (Timestamp.last.toInt - 1) - w.start.toInt) / d.micros.toInt) := by
  rw [closings, Int.toNat_eq_max, Int.max_comm]

/-- The windows that an event closes end before the clock does. -/
theorem boundary_lt_last {k : Nat} (hk : k < w.closings d t) :
    w.start.toInt + (k + 1) * d.micros.toInt < Timestamp.last.toInt := by
  have hd := d.one_le
  have hle : ((k : Int) + 1) ≤ (min t.toInt (Timestamp.last.toInt - 1) - w.start.toInt) / d.micros.toInt := by
    rw [closings] at hk
    omega
  have hmul := (Int.le_ediv_iff_mul_le (by omega)).1 hle
  omega

/-- A window that an event closes starts and ends at multiples of the length, with nothing cut off. -/
theorem ends_ahead (hw : w.stop = w.start.plus d) {k : Nat} (hk : k < w.closings d t) :
    (w.ahead d recording k).start.toInt = w.start.toInt + k * d.micros.toInt ∧
      (w.ahead d recording k).stop.toInt = w.start.toInt + (k + 1) * d.micros.toInt := by
  have hd := d.one_le
  have hlast := boundary_lt_last hk
  rw [Int.add_mul, Int.one_mul] at hlast ⊢
  have hstart : (w.ahead d recording k).start.toInt = w.start.toInt + k * d.micros.toInt :=
    start_ahead hw k (by omega)
  refine ⟨hstart, ?_⟩
  rw [stop_ahead hw, Timestamp.toInt_plus, hstart]
  omega

end Window

namespace Cadence

open Window WindowManager

/-- The closing loop ends, after a number of passes that is known beforehand. Whatever came to a manager and at whatever
times: if the current window starts at `s`, an event at time `t` makes the loop pass `⌊(min t (last - 1) - s) / d⌋`
times, or not at all if that is negative. It closes as many windows, the `k`-th of them from `s + k * d` to
`s + (k + 1) * d`, and is added to the one that is then at hand. -/
theorem closes_exactly (micros : Int64) (g : Geometry) (calls : List Call) {w : Window}
    (hw : ((start (.clamp micros) g).run calls).manager.current = some w) (e : Event) (recording : Bool) :
    let d : Int := max 1 (min micros.toInt 3600000000)
    let s := w.start.toInt
    let n : Int := max 0 ((min e.t.toInt (Timestamp.last.toInt - 1) - s) / d)
    let step := ((start (.clamp micros) g).run calls).manager.process e recording
    (∃ reached : Window,
      (∀ (passes : Nat) (last : Array Window × Window),
        LoopRun (.clamp micros) recording e.t passes (#[], w) last ↔ (passes : Int) = n ∧ last = (step.closed, reached)) ∧
      step.manager.current = some (reached.add e).2) ∧
    (step.closed.size : Int) = n ∧
    ∀ (k : Nat) (v : Window), step.closed[k]? = some v →
      v.start.toInt = s + k * d ∧ v.stop.toInt = s + (k + 1) * d := by
  intro d s n step
  have hsteady := (steady_start (.clamp micros) g).run calls
  have hstop := hsteady.stop w hw
  obtain ⟨hg, -⟩ := hsteady.fits w hw
  have hd : (WindowLength.clamp micros).micros.toInt = d := toInt_clamp micros
  have hstep : step = _ := WindowManager.process_of_current hg hw hstop e recording
  rw [hsteady.length] at hstop hstep
  have hn : (w.closings (.clamp micros) e.t : Int) = n := by rw [closings_eq, hd]
  rw [hstep]
  refine ⟨⟨w.ahead (.clamp micros) recording (w.closings (.clamp micros) e.t), fun passes last => ?_, rfl⟩, ?_, ?_⟩
  · rw [loopRun_iff hstop, closePast_eq hstop, ← hn]
    simp
  · simpa using hn
  · intro k v hv
    obtain ⟨hk, rfl⟩ : k < w.closings (.clamp micros) e.t ∧ w.ahead (.clamp micros) recording k = v := by
      simpa [List.getElem?_range, List.getElem?_eq_some_iff] using hv
    rw [← hd]
    exact ends_ahead hstop hk

/-- Shortly before the end of the clock an event at its end closes the current window and the next one. The one after
them is cut off by the end of the clock and stays open. -/
theorem closes_exactly_at_the_end :
    let before := (start (.clamp 2000) ⟨4, 4⟩).run [.process ⟨1, 1, .on, 9223372036854770000⟩ false]
    let step := before.manager.process ⟨2, 2, .on, Timestamp.last⟩ true
    ∃ w, before.manager.current = some w ∧ (step.closed.size : Int) = 2 ∧
      ∀ (k : Nat) (v : Window), step.closed[k]? = some v →
        v.start.toInt = 9223372036854770000 + k * 2000 ∧ v.stop.toInt = 9223372036854770000 + (k + 1) * 2000 := by
  intro before step
  have hw : before.manager.current =
      some ((fresh (.clamp 2000) ⟨4, 4⟩ 0 9223372036854770000 false).add ⟨1, 1, .on, 9223372036854770000⟩).2 := rfl
  have h := closes_exactly 2000 ⟨4, 4⟩ _ hw ⟨2, 2, .on, Timestamp.last⟩ true
  have hd : (max 1 (min (2000 : Int64).toInt 3600000000) : Int) = 2000 := by decide
  have hs : (9223372036854770000 : Int64).toInt = 9223372036854770000 := by decide
  simp only [hd, start_add, Window.fresh, hs, Timestamp.toInt_last] at h
  exact ⟨_, hw, h.2.1, h.2.2⟩

end Cadence

end EventCamera
