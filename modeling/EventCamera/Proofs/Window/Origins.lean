import EventCamera.Proofs.Window.Closing
/-!
# Where the events of a window came from

A trace keeps, beside the manager, which events went into which windows and the session of the batch
each event came in. `Trace.Shows.process`: feeding an event keeps the trace exact, that is, every
window shows the events the trace has for it and no others.
-/

namespace EventCamera

/-- An event with the session of the batch it came in. -/
structure Origin where
  session : SessionId
  event : Event
  deriving DecidableEq, Repr

/-- The windows closed so far and the current one, with the events that went into each. -/
structure Trace where
  closed : List (Window × List Origin)
  current : List Origin
  deriving DecidableEq, Repr

namespace Trace

def empty : Trace := ⟨[], []⟩

def windows (t : Trace) : List Window := t.closed.map Prod.fst

/-- An event that led to the given step of the manager. The first window it closes has the events so
far, those it skips have none, and the event itself goes into the window it falls into. -/
def feed (step : WindowManager.Step) (o : Origin) (t : Trace) : Trace :=
  match step.closed.toList with
  | [] => if step.outcome = .noGeometry then t else { t with current := t.current ++ [o] }
  | w :: skipped => ⟨t.closed ++ (w, t.current) :: skipped.map (·, []), [o]⟩

def reset (t : Trace) : Trace := { t with current := [] }

theorem windows_feed (step : WindowManager.Step) (o : Origin) (t : Trace) :
    (t.feed step o).windows = t.windows ++ step.closed.toList := by
  unfold feed
  split
  · next h => split <;> simp [windows, h]
  · next h => simp [windows, h, Function.comp_def]

/-- An event that closes no window goes into the current one. -/
theorem feed_of_none_closed {outcome : Outcome} (h : outcome ≠ .noGeometry) (m : WindowManager) (o : Origin)
    (t : Trace) : t.feed ⟨#[], outcome, m⟩ o = ⟨t.closed, t.current ++ [o]⟩ :=
  if_neg h

/-- A window in `closed` after feeding an event was there before, or has the events that were current,
or has none. -/
theorem mem_closed_feed {step : WindowManager.Step} {o : Origin} {t : Trace} {p : Window × List Origin}
    (h : p ∈ (t.feed step o).closed) : p ∈ t.closed ∨ p.2 = t.current ∨ p.2 = [] := by
  unfold feed at h
  split at h
  · split at h <;> exact .inl h
  · simp only [List.mem_append, List.mem_cons, List.mem_map] at h
    rcases h with h | rfl | ⟨w, -, rfl⟩
    · exact .inl h
    · exact .inr (.inl rfl)
    · exact .inr (.inr rfl)

theorem mem_current_feed {step : WindowManager.Step} {o o' : Origin} {t : Trace}
    (h : o' ∈ (t.feed step o).current) : o' ∈ t.current ∨ o' = o := by
  unfold feed at h
  split at h
  · split at h
    · exact .inl h
    · simpa using h
  · exact .inr (by simpa using h)

/-! ## Exact traces -/

/-- The trace is exact for the manager: each window shows the events that the trace has for it. -/
structure Shows (t : Trace) (m : WindowManager) : Prop where
  closed : ∀ p ∈ t.closed, p.1.Drawn (p.2.map Origin.event)
  idle : m.current = none → t.current = []
  current : ∀ w, m.current = some w → w.Drawn (t.current.map Origin.event)
  stop : ∀ w, m.current = some w → w.stop = w.start.plus m.length

theorem shows_new (length : WindowLength) (g : Geometry) : empty.Shows (.new length g) where
  closed := by simp [empty]
  idle _ := rfl
  current := by simp [WindowManager.new]
  stop := by simp [WindowManager.new]

/-- An event on a sensor with pixels is drawn or off the sensor. -/
theorem drawn_or_off_ne (drawn : Bool) :
    (if drawn then Outcome.accepted else Outcome.outOfBounds) ≠ .noGeometry := by
  cases drawn <;> simp

variable {t : Trace} {m : WindowManager}

theorem Shows.setGeometry (h : t.Shows m) (g : Geometry) : t.reset.Shows (m.setGeometry g) where
  closed := h.closed
  idle _ := rfl
  current := by simp [WindowManager.setGeometry, WindowManager.reset]
  stop := by simp [WindowManager.setGeometry, WindowManager.reset]

theorem Shows.process_of_idle (h : t.Shows m) (hg : m.geometry.isEmpty = false) (hc : m.current = none)
    (o : Origin) (recording : Bool) :
    (t.feed (m.process o.event recording) o).Shows (m.process o.event recording).manager := by
  rw [WindowManager.process_of_idle hg hc]
  have hdrawn := (Window.drawn_fresh m.length m.geometry m.nextIndex o.event.t recording).add o.event
  dsimp only
  rw [feed_of_none_closed (drawn_or_off_ne _), h.idle hc]
  refine ⟨h.closed, by simp, ?_, ?_⟩
  · rintro w ⟨⟩
    exact hdrawn
  · rintro w ⟨⟩
    simp [Window.fresh]

theorem Shows.process_of_current {w : Window} (h : t.Shows m) (hg : m.geometry.isEmpty = false)
    (hc : m.current = some w) (o : Origin) (recording : Bool) :
    (t.feed (m.process o.event recording) o).Shows (m.process o.event recording).manager := by
  have hw := h.stop w hc
  have hdrawn := h.current w hc
  rw [WindowManager.process_of_current hg hc hw]
  rcases hn : w.closings m.length o.event.t with _ | n
  · -- The event falls into the current window.
    dsimp only
    rw [List.range_zero, List.map_nil, feed_of_none_closed (drawn_or_off_ne _), Window.ahead_zero]
    refine ⟨h.closed, by simp, ?_, ?_⟩
    · rintro w' ⟨⟩
      simpa using hdrawn.add o.event
    · rintro w' ⟨⟩
      simpa using hw
  · -- It closes the current window and the `n` after it.
    refine ⟨?_, by simp, ?_, ?_⟩
    · intro p hp
      simp only [feed, List.range_succ_eq_map, List.map_cons, Window.ahead_zero, List.map_map, List.mem_append,
        List.mem_cons, List.mem_map, List.mem_range] at hp
      rcases hp with hp | rfl | ⟨k, -, rfl⟩
      · exact h.closed p hp
      · exact hdrawn
      · exact Window.drawn_ahead hdrawn k
    · rintro w' ⟨⟩
      simpa [feed, List.range_succ_eq_map] using (Window.drawn_ahead hdrawn n).add o.event
    · rintro w' ⟨⟩
      simpa using Window.stop_ahead hw (n + 1)

/-- Feeding an event keeps the trace exact. -/
theorem Shows.process (h : t.Shows m) (o : Origin) (recording : Bool) :
    (t.feed (m.process o.event recording) o).Shows (m.process o.event recording).manager := by
  cases hg : m.geometry.isEmpty with
  | true =>
    rw [WindowManager.process_of_isEmpty hg]
    exact h
  | false =>
    cases hc : m.current with
    | none => exact h.process_of_idle hg hc o recording
    | some w => exact h.process_of_current hg hc o recording

end Trace

end EventCamera
