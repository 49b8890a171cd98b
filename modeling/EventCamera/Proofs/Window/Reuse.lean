import EventCamera.Proofs.Window.Cadence
/-!
# Buffers are used again

A window becomes the next one in place: its list of events is emptied, and its canvas is cleared only if something was
drawn. `WindowManager.processAnew` feeds an event the plain way and opens a new window for each one that follows.

`reuse_unseen`: whatever comes to a manager, nothing that can be seen of it tells the two ways apart, and every window
shows the events accepted since it opened and no others. What is left of the last window is the danger; `Window.Drawn`
says that the flag by which the canvas is cleared tells exactly whether something was drawn (`Drawn.advance`).
-/

namespace EventCamera

namespace Window

variable {d : WindowLength} {recording : Bool} {t : Timestamp} {w : Window} {events : List Event}

/-! ## Opening windows anew -/

/-- Closes windows like `closePast`, but opens each one that follows anew. -/
def renewPast (d : WindowLength) (g : Geometry) (recording : Bool) (t : Timestamp) (w : Window)
    (closed : Array Window) : Array Window × Window :=
  if _h : w.Closes t then
    renewPast d g recording t (fresh d g (w.index + 1) w.stop recording) (closed.push w)
  else (closed, w)
termination_by (Timestamp.last.toInt - w.stop.toInt).toNat
decreasing_by
  have h₁ := Int64.lt_iff_toInt_lt.1 _h.2
  have h₂ := Int64.lt_iff_toInt_lt.1 (stop_lt_stop_advance d recording _h.2)
  have hstop : (fresh d g (w.index + 1) w.stop recording).stop = (w.advance d recording).stop := rfl
  rw [hstop]
  omega

/-- Moving on leaves nothing of what was drawn, so it is the same. -/
theorem renewPast_eq (h : w.Drawn events) (closed : Array Window) :
    w.renewPast d w.canvas.geometry recording t closed = w.closePast d recording t closed := by
  induction w, closed using closePast.induct d recording t generalizing events with
  | case1 w closed hcloses ih =>
    have hnext := ih h.advance_drawn
    rw [geometry_canvas_advance, h.advance d recording] at hnext
    rw [renewPast, dif_pos hcloses, closePast_of_closes closed hcloses, hnext, h.advance d recording]
  | case2 w closed hcloses => rw [renewPast, dif_neg hcloses, closePast_of_not_closes closed hcloses]

/-! ## Accepted events -/

/-- The window shows these events, and all of them are on the sensor. -/
structure Accepted (w : Window) (events : List Event) : Prop where
  drawn : w.Drawn events
  seen : ∀ e ∈ events, w.canvas.geometry.sees e = true

theorem accepted_nil (h : w.Drawn []) : w.Accepted [] := ⟨h, nofun⟩

/-- An event that is added is accepted if it is on the sensor. -/
theorem Accepted.add (h : w.Accepted events) (e : Event) :
    (w.add e).2.Accepted (events ++ if (w.add e).1 = true then [e] else []) := by
  rw [fst_add]
  cases hs : w.canvas.geometry.sees e with
  | true =>
    refine ⟨h.drawn.add e, fun e' he' => ?_⟩
    rw [geometry_canvas_add]
    rcases List.mem_append.1 he' with he' | he'
    · exact h.seen e' he'
    · rw [List.mem_singleton.1 he']
      exact hs
  | false =>
    rw [add_of_not_sees hs, if_neg (by simp), List.append_nil]
    exact h

/-- What a window tells of the events accepted since it opened: whether there were any, the pixels they lie at, and the
events themselves if it is recorded. -/
structure Tells (w : Window) (accepted : List Event) : Prop where
  isEmpty_iff_blank : w.isEmpty = true ↔ ∀ v ∈ w.canvas.pixels, v = Frame.background
  isEmpty_iff_nil : w.isEmpty = true ↔ accepted = []
  events : w.events.toList = if w.recording then accepted else []
  pixel : ∀ x y, x < w.canvas.geometry.width.toNat → y < w.canvas.geometry.height.toNat →
    w.canvas.pixels[y * w.canvas.geometry.width.toNat + x]? =
      some (if ∃ e ∈ accepted, e.x.toNat = x ∧ e.y.toNat = y then Frame.foreground else Frame.background)

theorem Accepted.pixel (h : w.Accepted events) {x y : Nat} (hx : x < w.canvas.geometry.width.toNat)
    (hy : y < w.canvas.geometry.height.toNat) :
    w.canvas.pixels[y * w.canvas.geometry.width.toNat + x]? =
      some (if ∃ e ∈ events, e.x.toNat = x ∧ e.y.toNat = y then Frame.foreground else Frame.background) := by
  have hpixel := Frame.pixel_raster w.canvas.geometry events hx hy
  rwa [← h.drawn.canvas] at hpixel

theorem Accepted.isEmpty_iff (h : w.Accepted events) : w.isEmpty = true ↔ events = [] := by
  rw [isEmpty, Bool.not_eq_true', h.drawn.touched, List.any_eq_false, List.eq_nil_iff_forall_not_mem]
  exact forall₂_congr fun e he => by simp [h.seen e he]

/-- An accepted event leaves a pixel that is not background. -/
theorem Accepted.blank_iff (h : w.Accepted events) :
    (∀ v ∈ w.canvas.pixels, v = Frame.background) ↔ events = [] := by
  constructor
  · intro hblank
    refine List.eq_nil_iff_forall_not_mem.2 fun e he => ?_
    obtain ⟨hx, hy⟩ := (Geometry.contains_iff _ _ _).1 (h.seen e he)
    have hpixel := h.pixel hx hy
    rw [if_pos ⟨e, he, rfl, rfl⟩] at hpixel
    exact absurd (hblank _ (Array.mem_of_getElem? hpixel)) (by decide)
  · rintro rfl v hv
    rw [h.drawn.canvas] at hv
    exact (Array.mem_replicate.1 hv).2

theorem Accepted.tells (h : w.Accepted events) : w.Tells events where
  isEmpty_iff_blank := h.isEmpty_iff.trans h.blank_iff.symm
  isEmpty_iff_nil := h.isEmpty_iff
  events := by
    rw [h.drawn.events, List.filter_eq_self.2 h.seen]
  pixel _ _ := h.pixel

end Window

namespace WindowManager

/-- Feeds one event like `process`, but opens every window anew. -/
def processAnew (event : Event) (recording : Bool) (m : WindowManager) : Step :=
  match m with
  | ⟨length, geometry, current, nextIndex⟩ =>
    if geometry.isEmpty then ⟨#[], .noGeometry, ⟨length, geometry, current, nextIndex⟩⟩
    else
      let (closed, reached) := match current with
        | some w => w.renewPast length geometry recording event.t #[]
        | none => (#[], .fresh length geometry nextIndex event.t recording)
      let index := reached.index
      let (drawn, window) := reached.add event
      ⟨closed, if drawn then .accepted else .outOfBounds, ⟨length, geometry, some window, index + 1⟩⟩

theorem processAnew_eq {m : WindowManager}
    (h : ∀ w, m.current = some w → (∃ events, w.Drawn events) ∧ w.canvas.geometry = m.geometry) (e : Event)
    (recording : Bool) : m.processAnew e recording = m.process e recording := by
  obtain ⟨length, geometry, current, nextIndex⟩ := m
  cases current with
  | none => rfl
  | some w =>
    obtain ⟨⟨events, hdrawn⟩, hg⟩ := h w rfl
    dsimp only at hg
    subst hg
    simp only [processAnew, process, Window.renewPast_eq hdrawn]

end WindowManager

/-! ## Whatever comes to a manager -/

/-- A manager, and what has come out of it. -/
structure Intake where
  manager : WindowManager
  /-- What became of each event. -/
  outcomes : List Outcome
  /-- The windows handed over, each with the events accepted since it opened. -/
  handed : List (Window × List Event)
  /-- The events accepted since the current window opened. -/
  accepted : List Event

namespace Intake

open WindowManager

def start (length : WindowLength) (g : Geometry) : Intake := ⟨.new length g, [], [], []⟩

/-- The first of the windows handed over was the current one; the others were skipped. -/
def handOver (accepted : List Event) : List Window → List (Window × List Event)
  | [] => []
  | w :: skipped => (w, accepted) :: skipped.map (·, [])

/-- A call comes, and events are fed in the given way. -/
def act (feed : Event → Bool → WindowManager → Step) (x : Intake) : Call → Intake
  | .process e recording =>
    let step := feed e recording x.manager
    { manager := step.manager
      outcomes := x.outcomes ++ [step.outcome]
      handed := x.handed ++ handOver x.accepted step.closed.toList
      accepted := (if step.closed.isEmpty then x.accepted else []) ++ if step.outcome = .accepted then [e] else [] }
  | .flush =>
    let (window, manager) := x.manager.flush
    { x with manager, handed := x.handed ++ handOver x.accepted window.toList, accepted := [] }
  | .reset => { x with manager := x.manager.reset, accepted := [] }
  | .setGeometry g => { x with manager := x.manager.setGeometry g, accepted := [] }

def run (feed : Event → Bool → WindowManager → Step) (x : Intake) (calls : List Call) : Intake :=
  calls.foldl (act feed) x

/-- What every call keeps. -/
structure Exact (x : Intake) : Prop where
  handed : ∀ p ∈ x.handed, p.1.Accepted p.2
  idle : x.manager.current = none → x.accepted = []
  current : ∀ w, x.manager.current = some w → w.Accepted x.accepted
  geometry : ∀ w, x.manager.current = some w → w.canvas.geometry = x.manager.geometry
  stop : ∀ w, x.manager.current = some w → w.stop = w.start.plus x.manager.length

variable {x : Intake}

/-- Without a current window only those handed over matter. -/
theorem exact_of_idle (hhanded : ∀ p ∈ x.handed, p.1.Accepted p.2) (hc : x.manager.current = none)
    (haccepted : x.accepted = []) : x.Exact := by
  refine ⟨hhanded, fun _ => haccepted, ?_, ?_, ?_⟩ <;> simp [hc]

theorem exact_start (length : WindowLength) (g : Geometry) : (start length g).Exact :=
  exact_of_idle (by simp [start]) rfl rfl

/-- The windows handed over show what was accepted, if the current one did and the others are blank. -/
theorem Exact.handOver (h : x.Exact) {closed : List Window}
    (hfirst : ∀ w, closed.head? = some w → w.Accepted x.accepted) (hrest : ∀ w ∈ closed.tail, w.Drawn []) :
    ∀ p ∈ x.handed ++ handOver x.accepted closed, p.1.Accepted p.2 := by
  intro p hp
  rcases List.mem_append.1 hp with hp | hp
  · exact h.handed p hp
  · cases closed with
    | nil => cases hp
    | cons w skipped =>
      rcases List.mem_cons.1 hp with rfl | hp
      · exact hfirst w rfl
      · obtain ⟨v, hv, rfl⟩ := List.mem_map.1 hp
        exact Window.accepted_nil (hrest v hv)

theorem accepted_outcome (drawn : Bool) (e : Event) :
    (if (if drawn = true then Outcome.accepted else .outOfBounds) = .accepted then [e] else []) =
      if drawn = true then [e] else [] := by
  cases drawn <;> rfl

theorem Exact.process_of_idle (h : x.Exact) (hg : x.manager.geometry.isEmpty = false)
    (hc : x.manager.current = none) (e : Event) (recording : Bool) :
    (x.act process (.process e recording)).Exact := by
  have hopened := (Window.accepted_nil (Window.drawn_fresh x.manager.length x.manager.geometry x.manager.nextIndex e.t
    recording)).add e
  simp only [act, WindowManager.process_of_idle hg hc, accepted_outcome, h.idle hc]
  refine ⟨?_, nofun, ?_, ?_, ?_⟩
  · simpa [Intake.handOver] using h.handed
  · rintro w ⟨⟩
    exact hopened
  · rintro w ⟨⟩
    exact Window.geometry_canvas_add ..
  · rintro w ⟨⟩
    simp [Window.fresh]

theorem Exact.process_of_current {w : Window} (h : x.Exact) (hg : x.manager.geometry.isEmpty = false)
    (hc : x.manager.current = some w) (e : Event) (recording : Bool) :
    (x.act process (.process e recording)).Exact := by
  have hw := h.stop w hc
  have haccepted := h.current w hc
  have hgeometry := h.geometry w hc
  simp only [act, WindowManager.process_of_current hg hc hw, accepted_outcome]
  generalize w.closings x.manager.length e.t = n
  -- Either the event falls into the current window, or that is closed and the event falls into a blank one.
  have hreached : (w.ahead x.manager.length recording n).Accepted
      (if ((List.range n).map (w.ahead x.manager.length recording ·)).toArray.isEmpty then x.accepted else []) := by
    cases n with
    | zero => exact haccepted
    | succ n =>
      rw [if_neg (by simp)]
      exact Window.accepted_nil (Window.drawn_ahead haccepted.drawn n)
  refine ⟨h.handOver ?_ ?_, nofun, ?_, ?_, ?_⟩
  · intro v hv
    cases n with
    | zero => cases hv
    | succ n =>
      obtain rfl : w = v := by simpa [List.range_succ_eq_map] using hv
      exact haccepted
  · intro v hv
    cases n with
    | zero => cases hv
    | succ n =>
      simp only [List.range_succ_eq_map, List.map_cons, List.map_map, List.tail_cons, List.mem_map] at hv
      obtain ⟨k, -, rfl⟩ := hv
      exact Window.drawn_ahead haccepted.drawn k
  · rintro v ⟨⟩
    exact hreached.add e
  · rintro v ⟨⟩
    rw [Window.geometry_canvas_add, Window.geometry_canvas_ahead, hgeometry]
  · rintro v ⟨⟩
    simpa using Window.stop_ahead hw n

/-- Every call keeps it. -/
theorem Exact.act (h : x.Exact) (call : Call) : (x.act process call).Exact := by
  cases call with
  | process e recording =>
    cases hg : x.manager.geometry.isEmpty with
    | true =>
      have hstay : x.act process (.process e recording) = { x with outcomes := x.outcomes ++ [.noGeometry] } := by
        simp [Intake.act, process_of_isEmpty hg, Intake.handOver]
      rw [hstay]
      exact ⟨h.handed, h.idle, h.current, h.geometry, h.stop⟩
    | false =>
      cases hc : x.manager.current with
      | none => exact h.process_of_idle hg hc e recording
      | some w => exact h.process_of_current hg hc e recording
  | flush =>
    have htail : x.manager.current.toList.tail = [] := by cases x.manager.current <;> rfl
    refine exact_of_idle (h.handOver (fun w hw => h.current w ?_) ?_) rfl rfl
    · simpa [flush] using hw
    · simp [htail]
  | reset => exact exact_of_idle h.handed rfl rfl
  | setGeometry g => exact exact_of_idle h.handed rfl rfl

theorem Exact.run (h : x.Exact) (calls : List Call) : (x.run process calls).Exact := by
  induction calls generalizing x with
  | nil => exact h
  | cons call rest ih => exact ih (h.act call)

/-- A call comes to the same in either way. -/
theorem Exact.act_anew (h : x.Exact) (call : Call) : x.act processAnew call = x.act process call := by
  cases call with
  | process e recording =>
    have heq : x.manager.processAnew e recording = x.manager.process e recording :=
      processAnew_eq (fun w hw => ⟨⟨x.accepted, (h.current w hw).drawn⟩, h.geometry w hw⟩) e recording
    simp only [Intake.act, heq]
  | _ => rfl

theorem Exact.run_anew (h : x.Exact) (calls : List Call) : x.run processAnew calls = x.run process calls := by
  induction calls generalizing x with
  | nil => rfl
  | cons call rest ih =>
    rw [Intake.run, List.foldl_cons, h.act_anew]
    exact ih (h.act call)

/-- Nobody can tell that buffers are used again. Whatever comes to a manager, the outcomes, the windows handed over and
the current window are those of a manager that opens every window anew; and each of these windows tells which events
were accepted since it opened. -/
theorem reuse_unseen (length : WindowLength) (g : Geometry) (calls : List Call) :
    (start length g).run process calls = (start length g).run processAnew calls ∧
    let x := (start length g).run process calls
    (∀ w, x.manager.current = some w → w.Tells x.accepted) ∧ ∀ p ∈ x.handed, p.1.Tells p.2 := by
  have hstart := exact_start length g
  have h := hstart.run calls
  exact ⟨(hstart.run_anew calls).symm, fun w hw => (h.current w hw).tells, fun p hp => (h.handed p hp).tells⟩

end Intake

end EventCamera
