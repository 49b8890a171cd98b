import EventCamera.Camera.Synthetic
import Mathlib
/-!
# The stream of the synthetic camera

`Synthetic.stream_in_time`: as long as the sensor clock does not run out, whatever is drawn, batch `k` has the requested
number of events, they lie on the sensor, and they are spread evenly over the time from `k` to `k + 1` batch intervals.
So the stream is in order of time, within each batch and from one batch to the next.

The camera counts in words that wrap: `starts_eq` holds of all of them, and what is told of times and columns as numbers
begins where nothing has wrapped yet.
-/

namespace EventCamera

theorem SyntheticSettings.toNat_span (s : SyntheticSettings) : s.span.toNat = max s.batchInterval.toNat 1 := by
  unfold span
  split
  · next h =>
    rw [h]
    rfl
  · next h =>
    have hpos : s.batchInterval.toNat ≠ 0 := fun hz => h (UInt64.toNat_inj.1 hz)
    omega

namespace Synthetic

/-- Whether the draws for event number `i` are among those that are asked for: a row of the sensor and, for an odd
event, a column of the sensor. -/
def Draw.Fits (s : SyntheticSettings) (i : Nat) (d : Draw) : Prop :=
  d.row.toNat < s.height.toNat ∧ (i % 2 = 1 → d.column.toNat < s.width.toNat)

variable {s : SyntheticSettings} {i k n : Nat} {d : Draw}

/-! ## Times -/

theorem starts_eq (s : SyntheticSettings) (k : Nat) : starts s k = Int64.ofNat (k * s.span.toNat) := by
  induction k with
  | zero =>
    rw [Nat.zero_mul]
    rfl
  | succ k ih =>
    have hspan : s.span.toInt64 = Int64.ofNat s.span.toNat := by
      rw [← UInt64.toInt64_ofNat', UInt64.ofNat_toNat]
    rw [starts, ih, hspan, ← Int64.ofNat_add, Nat.succ_mul]

/-- How long after the start of its batch event number `i` comes. -/
def offset (s : SyntheticSettings) (i : Nat) : Nat := i * s.span.toNat / s.eventsPerBatch.toNat

theorem offset_lt_span (hi : i < s.eventsPerBatch.toNat) : offset s i < s.span.toNat := by
  have hspan : 0 < s.span.toNat := by
    rw [s.toNat_span]
    omega
  exact Nat.div_lt_of_lt_mul (Nat.mul_lt_mul_of_pos_right hi hspan)

theorem offset_mono {j : Nat} (h : i ≤ j) : offset s i ≤ offset s j :=
  Nat.div_le_div_right (Nat.mul_le_mul_right _ h)

theorem toNat_toUInt64_of_lt (hi : i < s.eventsPerBatch.toNat) : i.toUInt64.toNat = i := by
  have hcount := s.eventsPerBatch.toNat_lt
  rw [Nat.toUInt64, UInt64.toNat_ofNat']
  omega

/-- The product that the offset is computed from does not wrap. -/
theorem toNat_offset (hfits : s.eventsPerBatch.toNat * s.span.toNat < 2 ^ 64) (hi : i < s.eventsPerBatch.toNat) :
    (i.toUInt64 * s.span / (if s.eventsPerBatch = 0 then 1 else s.eventsPerBatch)).toNat = offset s i := by
  have hcount : s.eventsPerBatch ≠ 0 := by
    intro h
    rw [h] at hi
    exact Nat.not_lt_zero i hi
  have hproduct : i * s.span.toNat < 2 ^ 64 :=
    Nat.lt_of_le_of_lt (Nat.mul_le_mul_right _ (Nat.le_of_lt hi)) hfits
  rw [if_neg hcount, UInt64.toNat_div, UInt64.toNat_mul, toNat_toUInt64_of_lt hi, Nat.mod_eq_of_lt hproduct, offset]

theorem t_event (hfits : s.eventsPerBatch.toNat * s.span.toNat < 2 ^ 64) (hi : i < s.eventsPerBatch.toNat) :
    (event s (starts s k) i.toUInt64 d).t = Int64.ofNat (k * s.span.toNat + offset s i) := by
  have hoffset : (i.toUInt64 * s.span / (if s.eventsPerBatch = 0 then 1 else s.eventsPerBatch)).toInt64 =
      Int64.ofNat (offset s i) := by
    rw [← toNat_offset hfits hi, ← UInt64.toInt64_ofNat', UInt64.ofNat_toNat]
  rw [event, hoffset, starts_eq, ← Int64.ofNat_add]

/-! ## Places -/

theorem barColumn_eq (width : UInt32) {start : Nat} (h : start < 2 ^ 63) :
    (barColumn width (Int64.ofNat start)).toNat = start / 1000 % width.toNat % 65536 := by
  have hdiv : (Int64.ofNat start / 1000).toUInt64 = UInt64.ofNat (start / 1000) := by
    rw [← Int64.toUInt64_ofNat', Int64.ofNat_div h (by omega)]
    rfl
  rw [barColumn, hdiv, UInt64.toNat_toUInt16, UInt64.toNat_mod, UInt64.toNat_ofNat', UInt32.toNat_toUInt64,
    Nat.mod_eq_of_lt (a := start / 1000) (by omega)]

/-- What is left of a number after truncation is below every bound that the number is below. -/
theorem toNat_toUInt16_lt {a b : UInt32} (h : a.toNat < b.toNat) : a.toUInt16.toNat < b.toNat := by
  rw [UInt32.toNat_toUInt16]
  exact Nat.lt_of_le_of_lt (Nat.mod_le _ _) h

theorem even_toUInt64 (hi : i < s.eventsPerBatch.toNat) : i.toUInt64 % 2 = 0 ↔ i % 2 = 0 := by
  rw [← UInt64.toNat_inj, UInt64.toNat_mod, toNat_toUInt64_of_lt hi]
  rfl

theorem contains_event (hwidth : s.width ≠ 0) (hdraw : d.Fits s i) (hi : i < s.eventsPerBatch.toNat)
    {start : Nat} (hstart : start < 2 ^ 63) :
    let e := event s (Int64.ofNat start) i.toUInt64 d
    s.geometry.contains e.x e.y = true := by
  intro e
  have hpos : 0 < s.width.toNat := Nat.pos_of_ne_zero fun h => hwidth (UInt32.toNat_inj.1 h)
  refine (s.geometry.contains_iff _ _).2 ⟨?_, toNat_toUInt16_lt hdraw.1⟩
  show (if i.toUInt64 % 2 = 0 then barColumn s.width (Int64.ofNat start) else d.column.toUInt16).toNat < s.width.toNat
  split
  · rw [barColumn_eq s.width hstart]
    exact Nat.lt_of_le_of_lt (Nat.mod_le _ _) (Nat.mod_lt _ hpos)
  · next hodd =>
    have hodd : i % 2 = 1 := by
      have := mt (even_toUInt64 hi).2 hodd
      omega
    exact toNat_toUInt16_lt (hdraw.2 hodd)

/-! ## Batches -/

theorem getElem?_batchAt {start : Timestamp} {draws : Nat → Draw} {e : Event}
    (h : (batchAt s start draws)[i]? = some e) :
    i < s.eventsPerBatch.toNat ∧ e = event s start i.toUInt64 (draws i) := by
  rw [batchAt, List.getElem?_map, Option.map_eq_some_iff] at h
  obtain ⟨j, hj, rfl⟩ := h
  obtain ⟨hlt, rfl⟩ := List.getElem?_eq_some_iff.1 hj
  rw [List.length_range] at hlt
  exact ⟨hlt, by rw [List.getElem_range]⟩

/-- Event number `i` of batch number `k`: when it comes and where. -/
structure Placed (s : SyntheticSettings) (k i : Nat) (e : Event) : Prop where
  time : e.t.toInt = ((k * s.span.toNat + offset s i : Nat) : Int)
  inside : s.geometry.contains e.x e.y = true
  bar : i % 2 = 0 → e.x.toNat = k * s.span.toNat / 1000 % s.width.toNat % 65536

/-- Before the sensor clock runs out nothing wraps. -/
theorem placed_event (hwidth : s.width ≠ 0) (hclock : (k + 1) * s.span.toNat < 2 ^ 63)
    (hfits : s.eventsPerBatch.toNat * s.span.toNat < 2 ^ 64) (hi : i < s.eventsPerBatch.toNat) (hdraw : d.Fits s i) :
    Placed s k i (event s (starts s k) i.toUInt64 d) := by
  have hoffset := offset_lt_span hi
  rw [Nat.succ_mul] at hclock
  have hstart : k * s.span.toNat < 2 ^ 63 := by omega
  refine ⟨?_, ?_, fun heven => ?_⟩
  · rw [t_event hfits hi, Int64.toInt_ofNat_of_lt (by omega)]
  · rw [starts_eq]
    exact contains_event hwidth hdraw hi hstart
  · show (if i.toUInt64 % 2 = 0 then barColumn s.width (starts s k) else d.column.toUInt16).toNat = _
    rw [if_pos ((even_toUInt64 hi).2 heven), starts_eq, barColumn_eq s.width hstart]

/-- A batch of the stream: the requested number of events, each where and when it is to come. -/
structure PlacedBatch (s : SyntheticSettings) (k : Nat) (batch : List Event) : Prop where
  length : batch.length = s.eventsPerBatch.toNat
  placed : ∀ i e, batch[i]? = some e → Placed s k i e

theorem placedBatch_batchAt (hwidth : s.width ≠ 0) (hclock : (k + 1) * s.span.toNat < 2 ^ 63)
    (hfits : s.eventsPerBatch.toNat * s.span.toNat < 2 ^ 64) {draws : Nat → Draw}
    (hdraws : ∀ i < s.eventsPerBatch.toNat, (draws i).Fits s i) : PlacedBatch s k (batchAt s (starts s k) draws) where
  length := by rw [batchAt, List.length_map, List.length_range]
  placed i e h := by
    obtain ⟨hi, rfl⟩ := getElem?_batchAt h
    exact placed_event hwidth hclock hfits hi (hdraws i hi)

theorem PlacedBatch.lt_length {batch : List Event} (h : PlacedBatch s k batch) {e : Event}
    (he : batch[i]? = some e) : i < s.eventsPerBatch.toNat := by
  obtain ⟨hi, -⟩ := List.getElem?_eq_some_iff.1 he
  rwa [h.length] at hi

/-- The events of batch `k` come in its time. -/
theorem PlacedBatch.bounds {batch : List Event} (h : PlacedBatch s k batch) {e : Event} (he : e ∈ batch) :
    ((k * s.span.toNat : Nat) : Int) ≤ e.t.toInt ∧ e.t.toInt < (((k + 1) * s.span.toNat : Nat) : Int) := by
  obtain ⟨i, hi⟩ := List.mem_iff_getElem?.1 he
  have hoffset := offset_lt_span (h.lt_length hi)
  rw [(h.placed i e hi).time, Nat.succ_mul]
  omega

theorem PlacedBatch.sorted {batch : List Event} (h : PlacedBatch s k batch) :
    batch.Pairwise fun a b => a.t ≤ b.t := by
  rw [List.pairwise_iff_getElem]
  intro i j hi hj hij
  have hti := (h.placed i _ (List.getElem?_eq_getElem hi)).time
  have htj := (h.placed j _ (List.getElem?_eq_getElem hj)).time
  have hoffset := offset_mono (s := s) (Nat.le_of_lt hij)
  rw [Int64.le_iff_toInt_le, hti, htj]
  omega

/-! ## The stream -/

theorem getElem?_batches (hwidth : s.width ≠ 0) (hheight : s.height ≠ 0) (draws : Nat → Nat → Draw) {batch : List Event}
    (h : (batches s draws n)[k]? = some batch) : k < n ∧ batch = batchAt s (starts s k) (draws k) := by
  have hpixels : s.geometry.isEmpty = false := by
    simp [SyntheticSettings.geometry, Geometry.isEmpty, hwidth, hheight]
  rw [batches, hpixels, if_neg Bool.false_ne_true, List.getElem?_map, Option.map_eq_some_iff] at h
  obtain ⟨j, hj, rfl⟩ := h
  obtain ⟨hlt, rfl⟩ := List.getElem?_eq_some_iff.1 hj
  rw [List.length_range] at hlt
  exact ⟨hlt, by rw [List.getElem_range]⟩

/-- Batches that come one after the other make one stream in order of time. -/
theorem sorted_flatten {stream : List (List Event)} (h : ∀ k batch, stream[k]? = some batch → PlacedBatch s k batch) :
    stream.flatten.Pairwise fun a b => a.t ≤ b.t := by
  rw [List.pairwise_flatten]
  constructor
  · intro batch hbatch
    obtain ⟨k, hk⟩ := List.mem_iff_getElem?.1 hbatch
    exact (h k batch hk).sorted
  · rw [List.pairwise_iff_getElem]
    intro j k hj hk hjk a ha b hb
    obtain ⟨-, hbefore⟩ := (h j _ (List.getElem?_eq_getElem hj)).bounds ha
    obtain ⟨hafter, -⟩ := (h k _ (List.getElem?_eq_getElem hk)).bounds hb
    have hnext : (j + 1) * s.span.toNat ≤ k * s.span.toNat := Nat.mul_le_mul_right _ hjk
    rw [Int64.le_iff_toInt_le]
    omega

/-- The stream of a camera with pixels. For as many batches as the sensor clock has time for, and whatever is drawn, each
batch has the requested number of events; event `i` of batch `k` comes when `i` of the parts have passed into which the
time of the batch is divided; it lies on the sensor, also if the sensor is larger than a coordinate can tell; and every
other event lies on the bar. The events are in order of time, in each batch and in the whole stream. -/
theorem stream_in_time (hwidth : s.width ≠ 0) (hheight : s.height ≠ 0) {span count : Nat}
    (hspan : span = max s.batchInterval.toNat 1) (hcount : count = s.eventsPerBatch.toNat)
    (hclock : ((n * span : Nat) : Int) ≤ Timestamp.last.toInt) (hfits : count * span < 2 ^ 64)
    {draws : Nat → Nat → Draw} (hdraws : ∀ k < n, ∀ i < count, (draws k i).Fits s i) :
    let stream := batches s draws n
    stream.length = n ∧
    (∀ (k : Nat) batch, stream[k]? = some batch →
      batch.length = count ∧ (batch.Pairwise fun a b => a.t ≤ b.t) ∧
      ∀ (i : Nat) e, batch[i]? = some e →
        e.t.toInt = ((k * span + i * span / count : Nat) : Int) ∧
        k * span ≤ e.t.toInt ∧ e.t.toInt < (k + 1) * span ∧
        s.geometry.contains e.x e.y = true ∧
        (i % 2 = 0 → e.x.toNat = k * span / 1000 % s.width.toNat % 65536)) ∧
    stream.flatten.Pairwise fun a b => a.t ≤ b.t := by
  intro stream
  rw [← s.toNat_span] at hspan
  subst hspan hcount
  have hlast : Timestamp.last.toInt = 9223372036854775807 := by decide
  have hplaced : ∀ k batch, stream[k]? = some batch → PlacedBatch s k batch := by
    intro k batch hk
    obtain ⟨hlt, rfl⟩ := getElem?_batches hwidth hheight draws hk
    have hend : (k + 1) * s.span.toNat ≤ n * s.span.toNat := Nat.mul_le_mul_right _ hlt
    exact placedBatch_batchAt hwidth (by omega) hfits (hdraws k hlt)
  refine ⟨?_, fun k batch hk => ?_, sorted_flatten hplaced⟩
  · show (batches s draws n).length = n
    simp [batches, SyntheticSettings.geometry, Geometry.isEmpty, hwidth, hheight]
  · have h := hplaced k batch hk
    refine ⟨h.length, h.sorted, fun i e he => ?_⟩
    have hbounds := h.bounds (List.mem_of_getElem? he)
    have hplace := h.placed i e he
    rw [Int.natCast_mul, Int.natCast_mul] at hbounds
    exact ⟨hplace.time, hbounds.1, hbounds.2, hplace.inside, hplace.bar⟩

/-- A sensor wider than a coordinate can tell, and a bar that has come to a column beyond. -/
theorem stream_in_time_wide :
    let s : SyntheticSettings := ⟨70000, 3, 3, 65537000, 0, false⟩
    let stream := batches s (fun _ _ => ⟨69999, 2, true⟩) 2
    stream.map (·.map fun e => (e.x.toNat, e.t.toInt)) =
      [[(0, 0), (4463, 21845666), (0, 43691333)], [(1, 65537000), (4463, 87382666), (1, 109228333)]] ∧
    stream.length = 2 ∧ stream.flatten.Pairwise fun a b => a.t ≤ b.t := by
  intro s stream
  have hspan : 65537000 = max s.batchInterval.toNat 1 := by decide
  have hcount : 3 = s.eventsPerBatch.toNat := by decide
  have hdraws : ∀ k < 2, ∀ i < 3, Draw.Fits s i ⟨69999, 2, true⟩ := fun _ _ _ _ => ⟨by decide, fun _ => by decide⟩
  have h := stream_in_time (by decide) (by decide) hspan hcount (by decide) (by decide) hdraws
  exact ⟨by decide, h.1, h.2.2⟩

end Synthetic

end EventCamera
