import EventCamera.Proofs.Window.Closing
/-!
# The cadence of the windows

Events, flushes, resets and changes of the sensor size come to a manager in any order, and the events at
any time: late ones too, and ones at the end of the clock. `cadence_kept`: the windows handed over and the
current one are numbered without a gap, also across a flush, and lie side by side as long as nothing breaks
the row.

`Cadence` keeps, beside the manager, the windows it has handed over. `Steady` is what every call keeps.
The row needs the window at hand to be as long as the manager says, so that `process_of_current` tells
which windows an event closes.
-/

namespace EventCamera

namespace Window

variable {d : WindowLength} {recording : Bool} {t : Timestamp} {g : Geometry} {w : Window}

/-! ## The windows that an event closes -/

/-- An event closes the window it finds and those it skips, and does not close the one it falls into. -/
theorem closes_ahead_iff (hw : w.stop = w.start.plus d) {k : Nat} (hk : k ≤ w.closings d t) :
    (w.ahead d recording k).Closes t ↔ k < w.closings d t := by
  induction hn : w.closings d t generalizing w k with
  | zero =>
    obtain rfl : k = 0 := by omega
    have hnot : ¬w.Closes t := by
      intro h
      rw [closings_of_closes recording hw h] at hn
      exact Nat.succ_ne_zero _ hn
    simpa using hnot
  | succ n ih =>
    have h : w.Closes t := by
      by_contra h
      rw [closings_of_not_closes hw h] at hn
      exact Nat.succ_ne_zero _ hn.symm
    have hn' : (w.advance d recording).closings d t = n := by
      rw [closings_of_closes recording hw h] at hn
      exact Nat.succ.inj hn
    cases k with
    | zero => simpa using h
    | succ k =>
      rw [ahead_succ_eq, Nat.succ_lt_succ_iff]
      exact ih (stop_advance) (by omega) hn'

/-- A window that does not reach the end of the clock is as long as it should be. -/
theorem toInt_stop_of_lt_last (hw : w.stop = w.start.plus d) (h : w.stop < Timestamp.last) :
    w.stop.toInt = w.start.toInt + d.micros.toInt := by
  rw [Int64.lt_iff_toInt_lt] at h
  rw [hw, Timestamp.toInt_plus] at h ⊢
  omega

/-! ## The canvas -/

/-- The canvas has one pixel for each of the sensor. -/
def Fits (g : Geometry) (w : Window) : Prop := w.canvas.geometry = g ∧ w.canvas.pixels.size = g.area

theorem fits_fresh (d : WindowLength) (g : Geometry) (index : UInt64) (start : Timestamp) (recording : Bool) :
    (fresh d g index start recording).Fits g :=
  ⟨rfl, Frame.size_pixels_blank g⟩

theorem Fits.advance (h : w.Fits g) : (w.advance d recording).Fits g := by
  refine ⟨geometry_canvas_advance.trans h.1, ?_⟩
  unfold Window.advance
  dsimp only
  split
  · rw [Frame.size_pixels_clear, h.2]
  · exact h.2

theorem Fits.ahead (h : w.Fits g) (k : Nat) : (w.ahead d recording k).Fits g := by
  induction k with
  | zero => exact h
  | succ k ih =>
    rw [ahead_succ]
    exact ih.advance

theorem Fits.add (h : w.Fits g) (e : Event) : (w.add e).2.Fits g := by
  refine ⟨(geometry_canvas_add e w).trans h.1, ?_⟩
  cases hs : w.canvas.geometry.sees e with
  | true => rw [add_of_sees hs, Frame.size_pixels_mark, h.2]
  | false => rw [add_of_not_sees hs, h.2]

/-! ## Rows -/

/-- Each window starts where the one before it ends. -/
def Contiguous (ws : List Window) : Prop := ws.IsChain fun v w => w.start = v.stop

/-- The windows are numbered from zero on. -/
def Numbered (ws : List Window) : Prop := ws.map Window.index = (List.range ws.length).map UInt64.ofNat

/-- One window more is numbered by how many there were. -/
theorem numbered_concat_iff {ws : List Window} :
    Numbered (ws ++ [w]) ↔ Numbered ws ∧ w.index = UInt64.ofNat ws.length := by
  simp only [Numbered, List.map_append, List.length_append, List.length_singleton, List.range_succ]
  constructor
  · intro h
    obtain ⟨hws, hw⟩ := List.append_inj h (by simp)
    exact ⟨hws, by simpa using hw⟩
  · rintro ⟨hws, hw⟩
    rw [hws]
    simp [hw]

theorem contiguous_concat_congr {ws : List Window} {v : Window} (hstart : v.start = w.start) :
    Contiguous (ws ++ [v]) ↔ Contiguous (ws ++ [w]) := by
  simp only [Contiguous, List.isChain_append, List.isChain_singleton, List.head?_cons, Option.mem_some_iff]
  simp [hstart]

/-- The row goes on with the window that follows the last one. -/
theorem Contiguous.concat {ws : List Window} {v : Window} (h : Contiguous (ws ++ [w])) (hv : v.start = w.stop) :
    Contiguous (ws ++ [w] ++ [v]) := by
  refine List.isChain_append.2 ⟨h, List.isChain_singleton _, ?_⟩
  intro x hx y hy
  simp only [List.getLast?_append, List.getLast?_singleton, Option.some_or, Option.mem_some_iff] at hx
  simp only [List.head?_cons, Option.mem_some_iff] at hy
  subst hx hy
  exact hv

/-- The windows ahead carry on the numbers and the row, with the last of them drawn or not. -/
theorem row_ahead (d : WindowLength) (recording : Bool) {numbered contiguous : List Window}
    (hnumbered : Numbered (numbered ++ [w])) (hcontiguous : Contiguous (contiguous ++ [w])) (n : Nat) :
    Numbered (numbered ++ (List.range n).map (w.ahead d recording ·) ++ [w.ahead d recording n]) ∧
    Contiguous (contiguous ++ (List.range n).map (w.ahead d recording ·) ++ [w.ahead d recording n]) := by
  induction n with
  | zero => simpa using ⟨hnumbered, hcontiguous⟩
  | succ n ih =>
    obtain ⟨hn, hc⟩ := ih
    simp only [List.range_succ, List.map_append, List.map_cons, List.map_nil, ← List.append_assoc]
    refine ⟨numbered_concat_iff.2 ⟨hn, ?_⟩, hc.concat ?_⟩
    · obtain ⟨-, hindex⟩ := numbered_concat_iff.1 hn
      rw [ahead_succ, index_advance, hindex, @List.length_append _ _ [_], UInt64.ofNat_add]
      rfl
    · rw [ahead_succ, start_advance]

end Window

/-! ## Calls -/

/-- What can come to a manager. -/
inductive WindowManager.Call where
  | process (event : Event) (recording : Bool)
  | flush
  | reset
  | setGeometry (g : Geometry)
  deriving DecidableEq, Repr

/-- A manager and the windows it has handed over. -/
structure Cadence where
  manager : WindowManager
  /-- Those handed over since the indices last restarted. -/
  sinceReset : List Window
  /-- Those handed over since the last flush or reset. -/
  sinceBreak : List Window

namespace Cadence

open Window WindowManager

def start (length : WindowLength) (g : Geometry) : Cadence := ⟨.new length g, [], []⟩

def act (c : Cadence) : Call → Cadence
  | .process e recording =>
    let step := c.manager.process e recording
    ⟨step.manager, c.sinceReset ++ step.closed.toList, c.sinceBreak ++ step.closed.toList⟩
  | .flush =>
    let (window, manager) := c.manager.flush
    ⟨manager, c.sinceReset ++ window.toList, []⟩
  | .reset => ⟨c.manager.reset, [], []⟩
  | .setGeometry g => ⟨c.manager.setGeometry g, [], []⟩

def run (c : Cadence) (calls : List Call) : Cadence := calls.foldl act c

/-- The windows since the indices last restarted, the current one last. -/
def windows (c : Cadence) : List Window := c.sinceReset ++ c.manager.current.toList

/-- The windows since the last flush or reset, the current one last. -/
def unbroken (c : Cadence) : List Window := c.sinceBreak ++ c.manager.current.toList

/-- What every call keeps. -/
structure Steady (length : WindowLength) (c : Cadence) : Prop where
  length : c.manager.length = length
  numbered : Numbered c.windows
  next : c.manager.nextIndex = UInt64.ofNat c.windows.length
  contiguous : Contiguous c.unbroken
  /-- A window that opens anew does not follow others. -/
  idle : c.manager.current = none → c.sinceBreak = []
  stop : ∀ w, c.manager.current = some w → w.stop = w.start.plus c.manager.length
  fits : ∀ w, c.manager.current = some w → c.manager.geometry.isEmpty = false ∧ w.Fits c.manager.geometry

variable {length : WindowLength} {c : Cadence}

theorem steady_start (length : WindowLength) (g : Geometry) : (start length g).Steady length where
  length := rfl
  numbered := rfl
  next := rfl
  contiguous := List.isChain_nil
  idle _ := rfl
  stop := nofun
  fits := nofun

/-- A window that was just opened. -/
theorem Steady.process_of_idle (h : c.Steady length) (hg : c.manager.geometry.isEmpty = false)
    (hc : c.manager.current = none) (e : Event) (recording : Bool) :
    (c.act (.process e recording)).Steady length := by
  have hwindows : c.windows = c.sinceReset := by simp [windows, hc]
  have hnumbered := h.numbered
  have hnext := h.next
  rw [hwindows] at hnumbered hnext
  have hstep := WindowManager.process_of_idle hg hc e recording
  simp only [act, hstep]
  refine ⟨h.length, ?_, ?_, ?_, nofun, ?_, ?_⟩
  · have hopened : Numbered (c.sinceReset ++ [((fresh c.manager.length c.manager.geometry c.manager.nextIndex e.t
        recording).add e).2]) := by
      refine numbered_concat_iff.2 ⟨hnumbered, ?_⟩
      rw [index_add, ← hnext]
      rfl
    simpa [windows] using hopened
  · simp only [windows, List.append_nil, Option.toList_some, List.length_append, List.length_singleton,
      UInt64.ofNat_add, ← hnext]
    rfl
  · simp [unbroken, h.idle hc, Contiguous]
  · rintro w ⟨⟩
    simp [fresh]
  · rintro w ⟨⟩
    exact ⟨hg, (fits_fresh ..).add e⟩

/-- The current window and those that an event skips are handed over. -/
theorem Steady.process_of_current {w : Window} (h : c.Steady length) (hc : c.manager.current = some w) (e : Event)
    (recording : Bool) : (c.act (.process e recording)).Steady length := by
  have hw := h.stop w hc
  obtain ⟨hg, hfits⟩ := h.fits w hc
  have hnumbered : Numbered (c.sinceReset ++ [w]) := by simpa [windows, hc] using h.numbered
  have hcontiguous : Contiguous (c.sinceBreak ++ [w]) := by simpa [unbroken, hc] using h.contiguous
  have hstep := WindowManager.process_of_current hg hc hw e recording
  generalize w.closings c.manager.length e.t = n at hstep
  obtain ⟨hn, hcn⟩ := row_ahead c.manager.length recording hnumbered hcontiguous n
  obtain ⟨hpassed, hindex⟩ := numbered_concat_iff.1 hn
  simp only [act, hstep]
  refine ⟨h.length, ?_, ?_, ?_, nofun, ?_, ?_⟩
  · refine numbered_concat_iff.2 ⟨hpassed, ?_⟩
    rw [index_add, hindex]
  · rw [hindex]
    simp only [windows, Option.toList_some, List.length_append, List.length_singleton, UInt64.ofNat_add]
    rfl
  · exact (contiguous_concat_congr (start_add ..)).2 hcn
  · rintro w' ⟨⟩
    simpa using stop_ahead hw n
  · rintro w' ⟨⟩
    exact ⟨hg, (hfits.ahead n).add e⟩

/-- Every call keeps the cadence. -/
theorem Steady.act (h : c.Steady length) (call : Call) : (c.act call).Steady length := by
  cases call with
  | process e recording =>
    cases hg : c.manager.geometry.isEmpty with
    | true =>
      have hstay : c.act (.process e recording) = c := by
        rw [Cadence.act, process_of_isEmpty hg]
        simp
      rw [hstay]
      exact h
    | false =>
      cases hc : c.manager.current with
      | none => exact h.process_of_idle hg hc e recording
      | some w => exact h.process_of_current hc e recording
  | flush =>
    have hwindows : (c.act .flush).windows = c.windows := by simp [Cadence.act, windows, flush]
    refine ⟨h.length, ?_, ?_, List.isChain_nil, fun _ => rfl, nofun, nofun⟩
    · rw [hwindows]
      exact h.numbered
    · rw [hwindows]
      exact h.next
  | reset => exact ⟨h.length, rfl, rfl, List.isChain_nil, fun _ => rfl, nofun, nofun⟩
  | setGeometry g => exact ⟨h.length, rfl, rfl, List.isChain_nil, fun _ => rfl, nofun, nofun⟩

theorem Steady.run (h : c.Steady length) (calls : List Call) : (c.run calls).Steady length := by
  induction calls generalizing c with
  | nil => exact h
  | cons call rest ih => exact ih (h.act call)

/-- A window that an event closes is as long as it should be and does not reach the end of the clock. -/
theorem Steady.closed (h : c.Steady length) {e : Event} {recording : Bool} {w : Window}
    (hclosed : w ∈ (c.manager.process e recording).closed) :
    w.stop.toInt = w.start.toInt + length.micros.toInt ∧ w.stop < Timestamp.last := by
  cases hg : c.manager.geometry.isEmpty with
  | true => simp [process_of_isEmpty hg] at hclosed
  | false =>
    cases hc : c.manager.current with
    | none => simp [WindowManager.process_of_idle hg hc] at hclosed
    | some v =>
      have hv := h.stop v hc
      rw [WindowManager.process_of_current hg hc hv] at hclosed
      simp only [List.mem_toArray, List.mem_map, List.mem_range] at hclosed
      obtain ⟨k, hk, rfl⟩ := hclosed
      have hcloses : (v.ahead c.manager.length recording k).Closes e.t :=
        (closes_ahead_iff hv (Nat.le_of_lt hk)).2 hk
      refine ⟨?_, hcloses.2⟩
      rw [toInt_stop_of_lt_last (stop_ahead hv k) hcloses.2, h.length]

/-- After an event the current window has not ended, unless the clock ends with it. -/
theorem Steady.reached (h : c.Steady length) (hg : c.manager.geometry.isEmpty = false) (e : Event)
    (recording : Bool) :
    ∃ w, (c.manager.process e recording).manager.current = some w ∧ (e.t < w.stop ∨ w.stop = Timestamp.last) := by
  have hlast : ∀ w : Window, ¬w.Closes e.t → e.t < w.stop ∨ w.stop = Timestamp.last := by
    intro w hw
    have hle := w.stop.toInt_le
    rw [Closes, Int64.le_iff_toInt_le, Int64.lt_iff_toInt_lt] at hw
    rw [Int64.lt_iff_toInt_lt, ← Int64.toInt_inj]
    change w.stop.toInt ≤ Timestamp.last.toInt at hle
    omega
  cases hc : c.manager.current with
  | none =>
    rw [WindowManager.process_of_idle hg hc]
    refine ⟨_, rfl, hlast _ ?_⟩
    intro hcloses
    rw [Closes, stop_add] at hcloses
    -- It ends later than the event, which opened it, or with the clock.
    have hstop : (fresh c.manager.length c.manager.geometry c.manager.nextIndex e.t recording).stop.toInt =
        min (e.t.toInt + c.manager.length.micros.toInt) Timestamp.last.toInt := Timestamp.toInt_plus ..
    have hd := c.manager.length.one_le
    rw [Int64.le_iff_toInt_le, Int64.lt_iff_toInt_lt, hstop] at hcloses
    omega
  | some v =>
    have hv := h.stop v hc
    rw [WindowManager.process_of_current hg hc hv]
    refine ⟨_, rfl, hlast _ ?_⟩
    have hnot : ¬(v.ahead c.manager.length recording (v.closings c.manager.length e.t)).Closes e.t := by
      rw [closes_ahead_iff hv (Nat.le_refl _)]
      exact Nat.lt_irrefl _
    rw [Closes, stop_add]
    exact hnot

/-- The cadence never breaks. Whatever comes to a manager, in any order and at any times: since the indices last
restarted the windows are numbered from zero on, and since the last flush or reset each starts where the one
before it ended. An event closes only windows of the full length that end before the clock does, and leaves one
current that has not ended. A current window has the size of the sensor and the number before the next one. -/
theorem cadence_kept (length : WindowLength) (g : Geometry) (calls : List Call) :
    let c := (start length g).run calls
    let m := c.manager
    (∀ k w, c.windows[k]? = some w → w.index = UInt64.ofNat k) ∧
    (∀ k v w, c.unbroken[k]? = some v → c.unbroken[k + 1]? = some w → w.start = v.stop) ∧
    (∀ e recording, ∀ w ∈ (m.process e recording).closed,
      w.stop.toInt = w.start.toInt + length.micros.toInt ∧ w.stop ≠ Timestamp.last) ∧
    (∀ e recording, m.geometry.isEmpty = false →
      ∃ w, (m.process e recording).manager.current = some w ∧ (e.t < w.stop ∨ w.stop = Timestamp.last)) ∧
    (∀ w, m.current = some w → m.geometry.isEmpty = false ∧ w.canvas.geometry = m.geometry ∧
      w.canvas.pixels.size = m.geometry.area ∧ m.nextIndex = w.index + 1) := by
  intro c m
  have h : c.Steady length := (steady_start length g).run calls
  refine ⟨?_, ?_, ?_, ?_, ?_⟩
  · intro k w hw
    have hindex := congrArg (·[k]?) h.numbered
    rw [List.getElem?_map, hw, List.getElem?_map, List.getElem?_range (List.getElem?_eq_some_iff.1 hw).1] at hindex
    exact Option.some.inj hindex
  · intro k v w hv hw
    obtain ⟨hk, rfl⟩ := List.getElem?_eq_some_iff.1 hw
    obtain ⟨hk', rfl⟩ := List.getElem?_eq_some_iff.1 hv
    exact List.isChain_iff_getElem.1 h.contiguous k hk
  · intro e recording w hw
    obtain ⟨hlength, hlast⟩ := h.closed hw
    exact ⟨hlength, fun heq => absurd (heq ▸ hlast) (Int64.lt_irrefl)⟩
  · intro e recording hg
    exact h.reached hg e recording
  · intro w hw
    obtain ⟨hg, hgeometry, hsize⟩ := h.fits w hw
    have hwindows : c.windows = c.sinceReset ++ [w] := congrArg (c.sinceReset ++ Option.toList ·) hw
    have hnumbered := h.numbered
    have hnext := h.next
    rw [hwindows] at hnumbered hnext
    obtain ⟨-, hindex⟩ := numbered_concat_iff.1 hnumbered
    refine ⟨hg, hgeometry, hsize, ?_⟩
    rw [hindex]
    simpa [UInt64.ofNat_add] using hnext

end Cadence

end EventCamera
