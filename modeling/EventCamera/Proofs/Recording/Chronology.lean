import EventCamera.Proofs.Text.Order
import EventCamera.Proofs.Time.Dates
/-!
# Names in the order of time

The names of runs and captures tell a time in columns, from the year down to the second or the millisecond. A later
time has a greater row of numbers (`fields_lt`), so a run that began in a later second has the later name, and a capture
that was taken in a later millisecond (`names_chronological`).
-/

namespace EventCamera

open EventCamera.Calendar

namespace Instant

variable {a b i : Instant}

/-- An instant of a year with four digits, and no leap second. -/
structure Ordinary (i : Instant) : Prop where
  year_nonneg : 0 ≤ i.date.year
  year_le : i.date.year ≤ 9999
  nanos_lt : i.nanos < 1000000000

/-- How many milliseconds have begun since the start of 1970. -/
def milliseconds (i : Instant) : Int := i.seconds * 1000 + (i.nanos / 1000000 : Nat)

/-- The numbers on calendar and clock. -/
def fields (i : Instant) : List Nat := [i.date.year.toNat, i.date.month, i.date.day, i.hour, i.minute, i.second]

/-- The columns they are written in, behind what the name begins with. -/
def columns (front : String) : List Decimal.Column :=
  [⟨front, 4⟩, ⟨"", 2⟩, ⟨"", 2⟩, ⟨"_", 2⟩, ⟨"", 2⟩, ⟨"", 2⟩]

theorem Ordinary.second_eq (h : i.Ordinary) : i.second = i.secondOfDay % 60 := by
  rw [second, Nat.div_eq_of_lt h.nanos_lt, Nat.add_zero]

theorem secondOfDay_lt (i : Instant) : i.secondOfDay < 86400 := by
  unfold secondOfDay
  omega

theorem Ordinary.fits (h : i.Ordinary) (front : String) : List.Forall₂ Decimal.Column.Fits (columns front) i.fields := by
  obtain ⟨hmonth, hday⟩ := Date.ofDay_within (i.seconds / 86400 + unixDay)
  have hyear := h.year_nonneg
  have hmost := h.year_le
  have hclock := i.secondOfDay_lt
  have hsecond := h.second_eq
  have hhour : i.hour < 100 := by unfold hour; omega
  have hminute : i.minute < 100 := by unfold minute; omega
  refine .cons ⟨Nat.succ_pos _, ?_⟩ (.cons ⟨Nat.succ_pos _, ?_⟩ (.cons ⟨Nat.succ_pos _, ?_⟩
    (.cons ⟨Nat.succ_pos _, hhour⟩ (.cons ⟨Nat.succ_pos _, hminute⟩ (.cons ⟨Nat.succ_pos _, ?_⟩ .nil)))))
  · show i.date.year.toNat < 10000
    omega
  · exact hmonth.trans_lt (by decide)
  · exact hday.trans_lt (by decide)
  · show i.second < 100
    omega

/-- A later second has a greater row of numbers. -/
theorem fields_lt (ha : a.Ordinary) (hb : b.Ordinary) (h : a.seconds < b.seconds) : a.fields < b.fields := by
  have hyear := ha.year_nonneg
  simp only [fields, List.cons_lt_cons_iff]
  rcases Int.lt_or_le (a.seconds / 86400) (b.seconds / 86400) with hday | hday
  · rcases Date.before_ofDay (Int.add_lt_add_right hday unixDay) with hlt | ⟨heq, hlt | ⟨hmonth, hlt⟩⟩
    · have hyears : a.date.year < b.date.year := hlt
      exact .inl ((Int.toNat_lt_toNat (by omega)).2 hlt)
    · exact .inr ⟨congrArg Int.toNat heq, .inl hlt⟩
    · exact .inr ⟨congrArg Int.toNat heq, .inr ⟨hmonth, .inl hlt⟩⟩
  · -- on one day the clock decides
    have hsame : a.seconds / 86400 = b.seconds / 86400 := by omega
    have hdate : a.date = b.date := by rw [date, date, hsame]
    have hclock : a.secondOfDay < b.secondOfDay := by
      unfold secondOfDay
      omega
    refine .inr ⟨by rw [hdate], .inr ⟨by rw [hdate], .inr ⟨by rw [hdate], ?_⟩⟩⟩
    rw [ha.second_eq, hb.second_eq]
    simp only [hour, minute]
    omega

theorem fields_eq (ha : a.Ordinary) (hb : b.Ordinary) (h : a.seconds = b.seconds) : a.fields = b.fields := by
  have hdate : a.date = b.date := by rw [date, date, h]
  have hclock : a.secondOfDay = b.secondOfDay := by rw [secondOfDay, secondOfDay, h]
  simp only [fields, hour, minute, ha.second_eq, hb.second_eq, hdate, hclock]

theorem Ordinary.toList_compactText (h : i.Ordinary) (front : String) :
    (front ++ i.compactText).toList = Decimal.inColumns (columns front) i.fields := by
  have hyear : yearText i.date.year = Decimal.padded 4 i.date.year.toNat := by
    have hnonneg := h.year_nonneg
    have habs : i.date.year.natAbs = i.date.year.toNat := by omega
    rw [yearText, if_neg (by omega), if_pos h.year_le, habs]
  simp [compactText, hyear, columns, fields, Decimal.inColumns, Decimal.padded]

end Instant

section Names

open EventCamera.Instant

variable {a b i : Instant}

/-! ## Runs -/

theorem narrow_runDirectoryName (h : i.Ordinary) : Bytes.Narrow (runDirectoryName i).toList := by
  rw [runDirectoryName, h.toList_compactText]
  exact Decimal.narrow_inColumns (by decide) _

theorem runDirectoryName_lt (ha : a.Ordinary) (hb : b.Ordinary) (h : a.seconds < b.seconds) :
    Bytes.ofText (runDirectoryName a) < Bytes.ofText (runDirectoryName b) := by
  refine Bytes.ofText_lt_ofText (narrow_runDirectoryName ha) (narrow_runDirectoryName hb) ?_
  have hlt := Decimal.inColumns_append_lt (ha.fits "run_") (hb.fits "run_") (fields_lt ha hb h) [] []
  rwa [List.append_nil, List.append_nil, ← ha.toList_compactText, ← hb.toList_compactText] at hlt

theorem runDirectoryName_congr (ha : a.Ordinary) (hb : b.Ordinary) (h : a.seconds = b.seconds) :
    runDirectoryName a = runDirectoryName b := by
  rw [← String.toList_inj, runDirectoryName, runDirectoryName, ha.toList_compactText, hb.toList_compactText,
    fields_eq ha hb h]

/-! ## Captures -/

/-- What follows the second in the name of a capture. -/
def captureEnd (millisecond : Nat) : List Char := '_' :: (Decimal.paddedDigits 3 millisecond ++ ".pgm".toList)

theorem toList_captureFileName (h : i.Ordinary) :
    (captureFileName i).toList =
      Decimal.inColumns (columns "capture_") i.fields ++ captureEnd (i.subsecond / 1000000) := by
  rw [← h.toList_compactText]
  simp [captureFileName, captureEnd, Decimal.padded]

theorem narrow_captureFileName (h : i.Ordinary) : Bytes.Narrow (captureFileName i).toList := by
  have hgap : Bytes.Narrow ['_'] := by decide
  have hend : Bytes.Narrow ".pgm".toList := by decide
  rw [toList_captureFileName h]
  exact (Decimal.narrow_inColumns (by decide) _).append
    (hgap.append ((Decimal.narrow_paddedDigits 3 _).append hend))

/-- Only a leap second counts beyond a second. -/
theorem Instant.Ordinary.subsecond_eq (h : i.Ordinary) : i.subsecond = i.nanos := Nat.mod_eq_of_lt h.nanos_lt

theorem captureFileName_lt (ha : a.Ordinary) (hb : b.Ordinary) (h : a.milliseconds < b.milliseconds) :
    Bytes.ofText (captureFileName a) < Bytes.ofText (captureFileName b) := by
  have hamost := ha.nanos_lt
  have hbmost := hb.nanos_lt
  refine Bytes.ofText_lt_ofText (narrow_captureFileName ha) (narrow_captureFileName hb) ?_
  rw [toList_captureFileName ha, toList_captureFileName hb, ha.subsecond_eq, hb.subsecond_eq]
  unfold milliseconds at h
  rcases Int.lt_or_le a.seconds b.seconds with hseconds | hseconds
  · exact Decimal.inColumns_append_lt (ha.fits _) (hb.fits _) (fields_lt ha hb hseconds) _ _
  · -- within one second the millisecond decides
    rw [fields_eq ha hb (by omega)]
    have hmilliseconds : a.nanos / 1000000 < b.nanos / 1000000 := by omega
    refine List.append_left_lt (List.cons_lt_cons_iff.2 (.inr ⟨rfl, ?_⟩))
    exact Decimal.paddedDigits_append_lt hmilliseconds (by omega) (by omega) _ _

theorem captureFileName_congr (ha : a.Ordinary) (hb : b.Ordinary) (h : a.milliseconds = b.milliseconds) :
    captureFileName a = captureFileName b := by
  have hamost := ha.nanos_lt
  have hbmost := hb.nanos_lt
  unfold milliseconds at h
  rw [← String.toList_inj, toList_captureFileName ha, toList_captureFileName hb, ha.subsecond_eq, hb.subsecond_eq,
    fields_eq ha hb (by omega)]
  have hmilliseconds : a.nanos / 1000000 = b.nanos / 1000000 := by omega
  rw [hmilliseconds]

/-! ## Both -/

/-- Texts that follow the order of numbers are in the same order and tell the numbers apart. -/
theorem order_iff {x y : String} {j k : Int} (hlt : j < k → Bytes.ofText x < Bytes.ofText y) (heq : j = k → x = y)
    (hgt : k < j → Bytes.ofText y < Bytes.ofText x) :
    (Bytes.ofText x < Bytes.ofText y ↔ j < k) ∧ (x = y ↔ j = k) ∧ (Bytes.ofText y < Bytes.ofText x ↔ k < j) := by
  have hirrefl : ∀ bytes : Bytes, ¬bytes < bytes := fun bytes => List.lt_irrefl bytes
  have hasymm : ∀ {l r : Bytes}, l < r → ¬r < l := fun h => List.lt_asymm h
  rcases Int.lt_trichotomy j k with h | h | h
  · have hne : x ≠ y := by
      rintro rfl
      exact hirrefl _ (hlt h)
    exact ⟨iff_of_true (hlt h) h, iff_of_false hne (by omega), iff_of_false (hasymm (hlt h)) (by omega)⟩
  · obtain rfl := heq h
    exact ⟨iff_of_false (hirrefl _) (by omega), iff_of_true rfl h, iff_of_false (hirrefl _) (by omega)⟩
  · have hne : x ≠ y := by
      rintro rfl
      exact hirrefl _ (hgt h)
    exact ⟨iff_of_false (hasymm (hgt h)) (by omega), iff_of_false hne (by omega), iff_of_true (hgt h) h⟩

/-- In years of four digits, leap seconds apart: the name of a run comes before, is or comes after that of another one,
byte by byte, exactly as the second it began in does, and the name of a capture as the millisecond it was taken in. -/
theorem names_chronological (a b : Instant) (ha : a.Ordinary) (hb : b.Ordinary) :
    let run (i : Instant) : Bytes := Bytes.ofText (runDirectoryName i)
    let capture (i : Instant) : Bytes := Bytes.ofText (captureFileName i)
    ((run a < run b ↔ a.seconds < b.seconds) ∧ (runDirectoryName a = runDirectoryName b ↔ a.seconds = b.seconds) ∧
      (run b < run a ↔ b.seconds < a.seconds)) ∧
    (capture a < capture b ↔ a.milliseconds < b.milliseconds) ∧
      (captureFileName a = captureFileName b ↔ a.milliseconds = b.milliseconds) ∧
      (capture b < capture a ↔ b.milliseconds < a.milliseconds) :=
  ⟨order_iff (runDirectoryName_lt ha hb) (runDirectoryName_congr ha hb) (runDirectoryName_lt hb ha),
    order_iff (captureFileName_lt ha hb) (captureFileName_congr ha hb) (captureFileName_lt hb ha)⟩

/-- From the last millisecond of a leap day to the next day. -/
theorem names_chronological_leap_day :
    let a : Instant := ⟨951868799, 999999999, by decide, by decide, by decide⟩
    let b : Instant := ⟨951868800, 0, by decide, by decide, by decide⟩
    (a.Ordinary ∧ b.Ordinary) ∧
      (runDirectoryName a = "run_20000229_235959" ∧ runDirectoryName b = "run_20000301_000000") ∧
      Bytes.ofText (runDirectoryName a) < Bytes.ofText (runDirectoryName b) ∧
      (captureFileName a = "capture_20000229_235959_999.pgm" ∧ captureFileName b = "capture_20000301_000000_000.pgm") ∧
      Bytes.ofText (captureFileName a) < Bytes.ofText (captureFileName b) := by
  intro a b
  have ha : a.Ordinary := ⟨by decide +kernel, by decide +kernel, by decide⟩
  have hb : b.Ordinary := ⟨by decide +kernel, by decide +kernel, by decide⟩
  obtain ⟨⟨hrun, -, -⟩, ⟨hcapture, -, -⟩⟩ := names_chronological a b ha hb
  exact ⟨⟨ha, hb⟩, ⟨by decide +kernel, by decide +kernel⟩, hrun.2 (by decide), ⟨by decide +kernel, by decide +kernel⟩,
    hcapture.2 (by decide)⟩

end Names

end EventCamera
