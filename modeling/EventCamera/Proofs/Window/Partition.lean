import EventCamera.Proofs.Window.Closing
/-!
# The partition of a stream

A manager that starts afresh and is fed a stream in order of time closes one window after the other,
each as long as the window length, from the time of the first event on. `partition` gives what each of
them holds, and what the window holds that is current after the last event.

The proof feeds the stream one event at a time. `Cut` says of a window that it is window number `k` of the
stream. It tells the stream that settles the recording flag from the events that are drawn: a window that
opens under an event takes the flag of that event before the event is drawn.
-/

namespace EventCamera

namespace Window

/-- Start of window number `k` of a stream that begins at `t₀`. -/
def boundary (d : WindowLength) (t₀ : Int) (k : Nat) : Int := t₀ + k * d.micros.toInt

/-- Whether an event falls into window number `k`. -/
def within (d : WindowLength) (t₀ : Int) (k : Nat) (e : Event) : Bool :=
  boundary d t₀ k ≤ e.t.toInt && e.t.toInt < boundary d t₀ k + d.micros.toInt

variable {d : WindowLength} {g : Geometry} {t₀ : Int} {flags : List (Event × Bool)} {seen : List Event}
  {k : Nat} {w : Window}

theorem boundary_add (j : Nat) : boundary d t₀ (k + j) = boundary d t₀ k + j * d.micros.toInt := by
  simp only [boundary, Int.natCast_add, Int.add_mul]
  omega

theorem boundary_succ : boundary d t₀ (k + 1) = boundary d t₀ k + d.micros.toInt := by
  rw [boundary_add]
  omega

theorem boundary_le {j : Nat} (h : j ≤ k) : boundary d t₀ j ≤ boundary d t₀ k := by
  obtain ⟨i, rfl⟩ := Nat.exists_eq_add_of_le h
  have hd := d.one_le
  have hi : 0 ≤ (i : Int) * d.micros.toInt := Int.mul_nonneg (by omega) (by omega)
  rw [boundary_add]
  omega

/-- The number of the window that a time falls into. -/
theorem boundary_of_ediv {t : Int} (h : (k : Int) = (t - t₀) / d.micros.toInt) :
    boundary d t₀ k ≤ t ∧ t < boundary d t₀ (k + 1) := by
  have hd := d.one_le
  have h₁ := Int.ediv_mul_le (t - t₀) (show d.micros.toInt ≠ 0 by omega)
  have h₂ := Int.lt_ediv_add_one_mul_self (t - t₀) (show 0 < d.micros.toInt by omega)
  rw [← h] at h₁ h₂
  rw [boundary_succ, boundary]
  rw [Int.add_mul, Int.one_mul] at h₂
  omega

/-! ## One window of the stream -/

/-- Window number `k` of a stream: `flags` settles whether it is recorded, `seen` what it shows. -/
structure Cut (d : WindowLength) (g : Geometry) (t₀ : Int) (flags : List (Event × Bool)) (seen : List Event)
    (k : Nat) (w : Window) : Prop where
  index : w.index = UInt64.ofNat k
  start : w.start.toInt = boundary d t₀ k
  stop : w.stop = w.start.plus d
  geometry : w.canvas.geometry = g
  recording : (flags.find? fun p => boundary d t₀ k ≤ p.1.t.toInt).map (·.2) = some w.recording
  drawn : w.Drawn (seen.filter (within d t₀ k))

/-- A later event does not change whether the window is recorded. -/
theorem Cut.arrive (h : Cut d g t₀ flags seen k w) (p : Event × Bool) : Cut d g t₀ (flags ++ [p]) seen k w := by
  have hr := h.recording
  refine { h with recording := ?_ }
  obtain ⟨q, hq, hqr⟩ := Option.map_eq_some_iff.1 hr
  rw [List.find?_append, hq]
  exact congrArg some hqr

/-- An event past the end does not change what the window shows. -/
theorem Cut.pass (h : Cut d g t₀ flags seen k w) {e : Event} (he : boundary d t₀ (k + 1) ≤ e.t.toInt) :
    Cut d g t₀ flags (seen ++ [e]) k w := by
  rw [boundary_succ] at he
  have hw : within d t₀ k e = false := by simp [within]; omega
  refine { h with drawn := ?_ }
  simpa [List.filter_append, hw] using h.drawn

/-- An event that falls into the window is shown. -/
theorem Cut.add (h : Cut d g t₀ flags seen k w) {e : Event} (he : within d t₀ k e = true) :
    Cut d g t₀ flags (seen ++ [e]) k (w.add e).2 := by
  refine ⟨?_, ?_, ?_, ?_, ?_, ?_⟩
  · rw [index_add, h.index]
  · rw [start_add, h.start]
  · rw [stop_add, start_add, h.stop]
  · rw [geometry_canvas_add, h.geometry]
  · rw [recording_add, h.recording]
  · rw [List.filter_append, List.filter_cons, if_pos he]
    exact h.drawn.add e

/-- The windows after the last one of a stream, as they open under an event that skips them. -/
theorem Cut.ahead (h : Cut d g t₀ flags seen k w) {p : Event × Bool} {j : Nat}
    (hflags : ∀ q ∈ flags, q.1.t.toInt < boundary d t₀ (k + 1))
    (hseen : ∀ e ∈ seen, e.t.toInt < boundary d t₀ (k + 1))
    (hp : boundary d t₀ (k + (j + 1)) ≤ p.1.t.toInt) :
    Cut d g t₀ (flags ++ [p]) seen (k + (j + 1)) (w.ahead d p.2 (j + 1)) := by
  have hle : boundary d t₀ (k + 1) ≤ boundary d t₀ (k + (j + 1)) := boundary_le (by omega)
  have hlast : p.1.t.toInt ≤ Timestamp.last.toInt := p.1.t.toInt_le
  refine ⟨?_, ?_, ?_, ?_, ?_, ?_⟩
  · rw [index_ahead, h.index, ← UInt64.ofNat_add]
  · rw [boundary_add] at hp ⊢
    rw [start_ahead h.stop, h.start]
    rw [h.start]
    exact Int.le_trans hp hlast
  · exact stop_ahead h.stop _
  · rw [geometry_canvas_ahead, h.geometry]
  · have hnone : (flags.find? fun q => boundary d t₀ (k + (j + 1)) ≤ q.1.t.toInt) = none := by
      rw [List.find?_eq_none]
      intro q hq
      have := hflags q hq
      simp only [decide_eq_true_eq]
      omega
    rw [List.find?_append, hnone, recording_ahead]
    simp [hp]
  · have hnil : seen.filter (within d t₀ (k + (j + 1))) = [] := by
      rw [List.filter_eq_nil_iff]
      intro e he
      have := hseen e he
      simp only [within, Bool.and_eq_true, decide_eq_true_eq, not_and]
      omega
    rw [hnil]
    exact drawn_ahead h.drawn j

/-- The last window of a stream and those after it, as they open under the next event. -/
theorem Cut.opens {stream : List (Event × Bool)} (h : Cut d g t₀ stream (stream.map (·.1)) k w)
    {p : Event × Bool} {j : Nat} (hstream : ∀ q ∈ stream, q.1.t.toInt < boundary d t₀ (k + 1))
    (hp : boundary d t₀ (k + j) ≤ p.1.t.toInt) :
    Cut d g t₀ (stream ++ [p]) (stream.map (·.1)) (k + j) (w.ahead d p.2 j) := by
  cases j with
  | zero => exact h.arrive p
  | succ j =>
    refine h.ahead hstream (fun e he => ?_) hp
    obtain ⟨q, hq, rfl⟩ := List.mem_map.1 he
    exact hstream q hq

/-- How many windows an event closes that comes no earlier than what was seen. -/
theorem Cut.closings (h : Cut d g t₀ flags seen k w) {t : Timestamp} (ht : boundary d t₀ k ≤ t.toInt)
    (hlast : t < Timestamp.last) : ((k + w.closings d t : Nat) : Int) = (t.toInt - t₀) / d.micros.toInt := by
  have hd := d.one_le
  rw [Int64.lt_iff_toInt_lt] at hlast
  have hmin : min t.toInt (Timestamp.last.toInt - 1) = t.toInt := by omega
  have hsub : t.toInt - t₀ = t.toInt - boundary d t₀ k + k * d.micros.toInt := by rw [boundary]; omega
  have hpos : 0 ≤ (t.toInt - boundary d t₀ k) / d.micros.toInt := Int.ediv_nonneg (by omega) (by omega)
  rw [Window.closings, hmin, h.start, hsub, Int.add_mul_ediv_right _ _ (by omega)]
  omega

/-! ## What the window holds -/

/-- What window number `k` of a stream holds, where `d` is the length of the windows. -/
structure IsSlice (d : Int) (g : Geometry) (t₀ : Int) (stream : List (Event × Bool)) (k : Nat) (w : Window) :
    Prop where
  index : w.index.toNat = k
  start : w.start.toInt = t₀ + k * d
  geometry : w.canvas.geometry = g
  size : w.canvas.pixels.size = g.width.toNat * g.height.toNat
  pixel : ∀ x y, x < g.width.toNat → y < g.height.toNat →
    w.canvas.pixels[y * g.width.toNat + x]? =
      some (if ∃ p ∈ stream, p.1.x.toNat = x ∧ p.1.y.toNat = y ∧
        w.start.toInt ≤ p.1.t.toInt ∧ p.1.t.toInt < w.start.toInt + d then 255 else 0)
  recording : (stream.find? fun p => w.start.toInt ≤ p.1.t.toInt).map (·.2) = some w.recording
  events : w.events.toList =
    if w.recording then (stream.map (·.1)).filter fun e =>
      g.contains e.x e.y && w.start.toInt ≤ e.t.toInt && e.t.toInt < w.start.toInt + d
    else []

theorem Cut.isSlice {stream : List (Event × Bool)} (h : Cut d g t₀ stream (stream.map (·.1)) k w)
    (hk : k < 2 ^ 64) : IsSlice d.micros.toInt g t₀ stream k w := by
  have hb := h.start
  refine ⟨?_, ?_, h.geometry, ?_, ?_, ?_, ?_⟩
  · rw [h.index, UInt64.toNat_ofNat_of_lt' hk]
  · rw [hb, boundary]
  · rw [h.drawn.canvas, Frame.size_pixels_raster, h.geometry, Geometry.area]
  · intro x y hx hy
    have hat : (∃ e ∈ (stream.map (·.1)).filter (within d t₀ k), e.x.toNat = x ∧ e.y.toNat = y) ↔
        ∃ p ∈ stream, p.1.x.toNat = x ∧ p.1.y.toNat = y ∧
          w.start.toInt ≤ p.1.t.toInt ∧ p.1.t.toInt < w.start.toInt + d.micros.toInt := by
      simp only [List.mem_filter, List.mem_map, within, ← hb, Bool.and_eq_true, decide_eq_true_eq]
      constructor
      · rintro ⟨_, ⟨⟨p, hp, rfl⟩, ht⟩, hx, hy⟩
        exact ⟨p, hp, hx, hy, ht⟩
      · rintro ⟨p, hp, hx, hy, ht⟩
        exact ⟨p.1, ⟨⟨p, hp, rfl⟩, ht⟩, hx, hy⟩
    rw [h.drawn.canvas, h.geometry, Frame.pixel_raster g _ hx hy]
    exact congrArg some (if_congr hat rfl rfl)
  · rw [hb, h.recording]
  · rw [h.drawn.events, h.geometry, List.filter_filter]
    have hp : (fun e => g.sees e && within d t₀ k e) = fun e => g.contains e.x e.y &&
        decide (w.start.toInt ≤ e.t.toInt) && decide (e.t.toInt < w.start.toInt + d.micros.toInt) := by
      funext e
      rw [Geometry.sees, within, ← hb, Bool.and_assoc]
    rw [hp]

/-- The window ends where the next one starts, or at the end of the clock. -/
theorem Cut.toInt_stop (h : Cut d g t₀ flags seen k w) :
    w.stop.toInt = min (boundary d t₀ (k + 1)) Timestamp.last.toInt := by
  rw [h.stop, Timestamp.toInt_plus, h.start, boundary_succ]

end Window

namespace WindowManager

open Window

/-! ## A whole stream -/

/-- A run has cut a stream, whose first event came at `t₀` and whose last at `tₙ`, into its windows. -/
structure Parted (d : WindowLength) (g : Geometry) (t₀ tₙ : Int) (stream : List (Event × Bool)) (run : Run) :
    Prop where
  length : run.manager.length = d
  geometry : run.manager.geometry = g
  count : (run.closed.length : Int) = (tₙ - t₀) / d.micros.toInt
  closed : ∀ k w, run.closed[k]? = some w → Cut d g t₀ stream (stream.map (·.1)) k w
  current : ∃ w, run.manager.current = some w ∧ Cut d g t₀ stream (stream.map (·.1)) run.closed.length w

variable {d : WindowLength} {g : Geometry}

/-- The first event opens window number zero. -/
theorem parted_singleton (hg : g.isEmpty = false) (p : Event × Bool) :
    Parted d g p.1.t.toInt p.1.t.toInt [p] ((new d g).processAll [p]) := by
  have hd := d.one_le
  have hb : boundary d p.1.t.toInt 0 = p.1.t.toInt := by simp [boundary]
  have hopen : Cut d g p.1.t.toInt [p] [] 0 (.fresh d g 0 p.1.t p.2) := by
    refine ⟨rfl, hb.symm, rfl, rfl, ?_, drawn_fresh ..⟩
    simp [hb, Window.fresh]
  have hin : within d p.1.t.toInt 0 p.1 = true := by
    simp only [within, hb, Bool.and_eq_true, decide_eq_true_eq]
    omega
  have hstep := process_of_idle (m := new d g) hg rfl p.1 p.2
  simp only [processAll, hstep]
  exact ⟨rfl, rfl, by simp, by simp, _, rfl, hopen.add hin⟩

/-- One more event: the windows it skips are closed, and it is drawn in the one it falls into. -/
theorem Parted.concat (hg : g.isEmpty = false) {t₀ tₙ : Int} {stream : List (Event × Bool)} {m : WindowManager}
    (h : Parted d g t₀ tₙ stream (m.processAll stream)) (hle : ∀ q ∈ stream, q.1.t.toInt ≤ tₙ)
    {p : Event × Bool} (hp : tₙ ≤ p.1.t.toInt) (hlast : p.1.t < Timestamp.last) :
    Parted d g t₀ p.1.t.toInt (stream ++ [p]) (m.processAll (stream ++ [p])) := by
  obtain ⟨w, hw, hcut⟩ := h.current
  generalize hrun : m.processAll stream = run at h hw hcut
  generalize hK : run.closed.length = K at hcut
  have hbound := boundary_of_ediv (d := d) (hK ▸ h.count)
  have hn := hcut.closings (t := p.1.t) (by omega) hlast
  have hopen := fun j => hcut.opens (p := p) (j := j) (fun q hq => Int.lt_of_le_of_lt (hle q hq) hbound.2)
  have hstep := process_of_current (h.geometry ▸ hg) hw (h.length ▸ hcut.stop) p.1 p.2
  rw [h.length] at hstep
  generalize w.closings d p.1.t = n at hn hstep
  have hend := boundary_of_ediv hn
  have hin : within d t₀ (K + n) p.1 = true := by
    rw [boundary_succ] at hend
    simpa only [within, Bool.and_eq_true, decide_eq_true_eq] using hend
  rw [processAll_concat, hrun]
  simp only [hstep]
  refine ⟨rfl, h.geometry, ?_, ?_, ?_⟩
  · simpa [hK] using hn
  · intro k u hu
    rw [List.map_append]
    rcases Nat.lt_or_ge k K with hk | hk
    · -- A window that was closed before.
      rw [List.getElem?_append_left (by omega)] at hu
      exact ((h.closed k u hu).arrive p).pass (Int.le_trans (boundary_le (by omega)) hend.1)
    · -- A window that the event closes.
      obtain ⟨j, rfl⟩ := Nat.exists_eq_add_of_le hk
      rw [List.getElem?_append_right (by omega), hK, Nat.add_sub_cancel_left] at hu
      obtain ⟨hj, rfl⟩ : j < n ∧ w.ahead d p.2 j = u := by
        simpa [List.getElem?_range, List.getElem?_eq_some_iff] using hu
      exact (hopen j (Int.le_trans (boundary_le (by omega)) hend.1)).pass
        (Int.le_trans (boundary_le (by omega)) hend.1)
  · rw [List.map_append]
    exact ⟨_, rfl, by simpa [hK] using (hopen n hend.1).add hin⟩

/-- The sensor clock is too short for the indices to wrap. -/
theorem Parted.length_closed_lt {t₀ tₙ : Int} {stream : List (Event × Bool)} {run : Run}
    (h : Parted d g t₀ tₙ stream run) (h₀ : Int64.minValue.toInt ≤ t₀) (hₙ : tₙ ≤ Int64.maxValue.toInt) :
    run.closed.length < 2 ^ 64 := by
  have hd := d.one_le
  have hmin : Int64.minValue.toInt = -9223372036854775808 := by decide
  have hmax : Int64.maxValue.toInt = 9223372036854775807 := by decide
  have hq : (tₙ - t₀) / d.micros.toInt < 2 ^ 64 := by
    rw [Int.ediv_lt_iff_lt_mul (by omega)]
    omega
  have hcount := h.count
  omega

/-- The last event of a stream in order of time is the latest. -/
theorem le_getLast {stream : List (Event × Bool)} (hne : stream ≠ [])
    (hsorted : stream.Pairwise fun p q => p.1.t ≤ q.1.t) :
    ∀ q ∈ stream, q.1.t.toInt ≤ (stream.getLast hne).1.t.toInt := by
  intro q hq
  rw [← List.dropLast_concat_getLast hne, List.pairwise_append] at hsorted
  rw [← List.dropLast_concat_getLast hne, List.mem_append, List.mem_singleton] at hq
  rcases hq with hq | rfl
  · exact Int64.le_iff_toInt_le.1 (hsorted.2.2 q hq _ (List.mem_singleton_self _))
  · exact Int.le_refl _

/-- A new manager cuts every stream in order of time into its windows. -/
theorem parted (hg : g.isEmpty = false) {stream : List (Event × Bool)} (hne : stream ≠ [])
    (hsorted : stream.Pairwise fun p q => p.1.t ≤ q.1.t) (hlast : ∀ p ∈ stream, p.1.t < Timestamp.last) :
    Parted d g (stream.head hne).1.t.toInt (stream.getLast hne).1.t.toInt stream
      ((new d g).processAll stream) := by
  induction stream using List.reverseRecOn with
  | nil => exact absurd rfl hne
  | append_singleton stream p ih =>
    by_cases hs : stream = []
    · subst hs
      exact parted_singleton hg p
    · obtain ⟨hsub, -, hend⟩ := List.pairwise_append.1 hsorted
      have h := ih hs hsub fun q hq => hlast q (List.mem_append_left _ hq)
      have hp := hend _ (List.getLast_mem hs) p (List.mem_singleton_self p)
      rw [List.head_append_of_ne_nil hs, List.getLast_concat]
      exact h.concat hg (le_getLast hs hsub) (Int64.le_iff_toInt_le.1 hp) (hlast p (by simp))

/-! ## The closed form -/

/-- A manager for windows of the requested length that has seen no event, at all or since its last reset. -/
inductive Restarted (micros : Int64) (g : Geometry) : WindowManager → Prop where
  | new : Restarted micros g (new (.clamp micros) g)
  | reset {m : WindowManager} : m.length = .clamp micros → m.geometry = g → Restarted micros g m.reset

theorem toInt_clamp (micros : Int64) :
    (WindowLength.clamp micros).micros.toInt = max 1 (min micros.toInt 3600000000) := by
  unfold WindowLength.clamp
  split
  · show (1 : Int) = _
    omega
  · split
    · show (3600000000 : Int) = _
      omega
    · show micros.toInt = _
      omega

/-- The closed form of the partition. From the time of the first event on, the windows that are closed and
the one that is current lie side by side, and each holds the events of its time. -/
theorem processAll_partition {micros : Int64} {g : Geometry} {m : WindowManager} (hm : Restarted micros g m)
    (hg : g.isEmpty = false) {stream : List (Event × Bool)} (hne : stream ≠ [])
    (hsorted : stream.Pairwise fun p q => p.1.t ≤ q.1.t) (hlast : ∀ p ∈ stream, p.1.t < Timestamp.last) :
    let d : Int := max 1 (min micros.toInt 3600000000)
    let t₀ := (stream.head hne).1.t.toInt
    let tₙ := (stream.getLast hne).1.t.toInt
    let run := m.processAll stream
    (run.closed.length : Int) = (tₙ - t₀) / d ∧
    (∀ k w, run.closed[k]? = some w →
      IsSlice d g t₀ stream k w ∧ w.stop.toInt = t₀ + (k + 1) * d) ∧
    ∃ w, run.manager.current = some w ∧ IsSlice d g t₀ stream run.closed.length w ∧
      w.stop.toInt = min (t₀ + (run.closed.length + 1) * d) Timestamp.last.toInt := by
  intro d t₀ tₙ run
  have hd : (WindowLength.clamp micros).micros.toInt = d := toInt_clamp micros
  have hrun : run = (new (.clamp micros) g).processAll stream := by
    cases hm with
    | new => rfl
    | reset hl hgm => rw [← hl, ← hgm]; rfl
  have h : Parted (.clamp micros) g t₀ tₙ stream run := hrun ▸ parted hg hne hsorted hlast
  obtain ⟨w, hw, hcut⟩ := h.current
  have hK := boundary_of_ediv h.count
  have hlt := h.length_closed_lt (stream.head hne).1.t.minValue_le_toInt (stream.getLast hne).1.t.toInt_le
  have hend : ∀ k : Nat, boundary (.clamp micros) t₀ (k + 1) = t₀ + (k + 1) * d := fun k => by
    rw [boundary, hd]
    rfl
  refine ⟨hd ▸ h.count, fun k u hu => ?_, w, hw, hd ▸ hcut.isSlice hlt, ?_⟩
  · have hk : k < run.closed.length := by
      by_contra hk
      rw [List.getElem?_eq_none (by omega)] at hu
      cases hu
    have hcut := h.closed k u hu
    have hle : boundary (.clamp micros) t₀ (k + 1) ≤ boundary (.clamp micros) t₀ run.closed.length :=
      boundary_le hk
    have hlast : tₙ ≤ Timestamp.last.toInt := (stream.getLast hne).1.t.toInt_le
    refine ⟨hd ▸ hcut.isSlice (by omega), ?_⟩
    rw [hcut.toInt_stop, ← hend k]
    omega
  · rw [hcut.toInt_stop, hend]

/-- An event off the sensor, then one after a gap: the window of the first event is closed and so are the
three that were skipped. -/
theorem processAll_partition_gap :
    let stream : List (Event × Bool) :=
      [(⟨1, 1, .on, 0⟩, true), (⟨9, 9, .off, 10⟩, false), (⟨2, 2, .on, 9500⟩, false)]
    let run := (new (.clamp 2000) ⟨4, 4⟩).processAll stream
    (run.closed.length : Int) = 4 ∧
    (∀ (k : Nat) w, run.closed[k]? = some w →
      IsSlice 2000 ⟨4, 4⟩ 0 stream k w ∧ w.stop.toInt = (k + 1) * 2000) ∧
    ∃ w, run.manager.current = some w ∧ IsSlice 2000 ⟨4, 4⟩ 0 stream run.closed.length w := by
  intro stream run
  have h := processAll_partition (.new : Restarted 2000 ⟨4, 4⟩ _) (by decide) (show stream ≠ [] by decide)
    (by decide) (by decide)
  have hd : (max 1 (min (2000 : Int64).toInt 3600000000) : Int) = 2000 := by decide
  have h₀ : (stream.head (by decide)).1.t.toInt = 0 := by decide
  have hₙ : (stream.getLast (by decide)).1.t.toInt = 9500 := by decide
  simp only [hd, h₀, hₙ, Int.zero_add] at h
  obtain ⟨hcount, hclosed, w, hw, hslice, -⟩ := h
  exact ⟨hcount, hclosed, w, hw, hslice⟩

end WindowManager

end EventCamera
