import EventCamera.Time.Calendar
import Mathlib
/-!
# Later days have later dates

Years follow each other (`yearOfDay_mono`), a year is as long as its months together (`sum_monthLengths`), and within a
year the months divide the days in order (`splitMonth_lt`). So the date of a later day is the later one
(`Date.before_ofDay`), and its month and day are at most 12 and 31 (`Date.ofDay_within`).
-/

namespace EventCamera.Calendar

/-! ## Years -/

theorem daysBeforeYear_mono {year year' : Int} (h : year ≤ year') : daysBeforeYear year ≤ daysBeforeYear year' := by
  simp only [daysBeforeYear]
  omega

theorem yearOfDay_mono {day day' : Int} (h : day ≤ day') : yearOfDay day ≤ yearOfDay day' := by
  by_contra hlt
  have hyears : daysBeforeYear (yearOfDay day' + 1) ≤ daysBeforeYear (yearOfDay day) := daysBeforeYear_mono (by omega)
  have hstart := daysBeforeYear_yearOfDay_le day
  have hend := lt_daysBeforeYear_yearOfDay day'
  omega

/-- A year is as long as its months together. -/
theorem sum_monthLengths (year : Int) :
    ((monthLengths year).sum : Int) = daysBeforeYear (year + 1) - daysBeforeYear year := by
  have hsum : (monthLengths year).sum = 337 + if isLeap year then 29 else 28 := by
    simp only [monthLengths, List.sum_cons, List.sum_nil]
    omega
  have hleap : isLeap year = true ↔ year % 4 = 0 ∧ (year % 100 ≠ 0 ∨ year % 400 = 0) := by simp [isLeap]
  rw [hsum]
  simp only [daysBeforeYear]
  by_cases h : isLeap year = true
  · rw [if_pos h]
    rw [hleap] at h
    omega
  · rw [if_neg h]
    rw [hleap] at h
    omega

theorem length_le_of_mem_monthLengths {year : Int} {length : Nat} (h : length ∈ monthLengths year) : length ≤ 31 := by
  have hmonths : ∀ leap : Bool, ∀ l ∈ [31, if leap then 29 else 28, 31, 30, 31, 30, 31, 31, 30, 31, 30, 31], l ≤ 31 := by
    decide
  exact hmonths (isLeap year) length h

/-! ## Months -/

variable {lengths : List Nat} {month day day' : Nat}

theorem le_fst_splitMonth (lengths : List Nat) (month day : Nat) : month ≤ (splitMonth lengths month day).1 := by
  induction lengths generalizing month day with
  | nil => exact Nat.le_refl month
  | cons length rest ih =>
    rw [splitMonth]
    split
    · exact Nat.le_refl month
    · exact (Nat.le_succ month).trans (ih (month + 1) (day - length))

/-- If the months last so long, the day lies in one of them. -/
theorem splitMonth_within {most : Nat} (hlengths : ∀ length ∈ lengths, length ≤ most) (month : Nat)
    (h : day < lengths.sum) :
    (splitMonth lengths month day).1 < month + lengths.length ∧ (splitMonth lengths month day).2 < most := by
  induction lengths generalizing month day with
  | nil => cases h
  | cons length rest ih =>
    obtain ⟨hlength, hrest⟩ := List.forall_mem_cons.1 hlengths
    rw [List.sum_cons] at h
    rw [splitMonth, List.length_cons]
    split
    · next hlt => exact ⟨by omega, hlt.trans_le hlength⟩
    · have hlater : day - length < rest.sum := by omega
      obtain ⟨hmonth, hday⟩ := ih hrest (month + 1) hlater
      exact ⟨by omega, hday⟩

/-- A later day lies in a later month, or later in the month. -/
theorem splitMonth_lt (lengths : List Nat) (month : Nat) (h : day < day') :
    (splitMonth lengths month day).1 < (splitMonth lengths month day').1 ∨
      (splitMonth lengths month day).1 = (splitMonth lengths month day').1 ∧
        (splitMonth lengths month day).2 < (splitMonth lengths month day').2 := by
  induction lengths generalizing month day day' with
  | nil => exact .inr ⟨rfl, h⟩
  | cons length rest ih =>
    rw [splitMonth, splitMonth]
    by_cases hday : day < length
    · rw [if_pos hday]
      by_cases hday' : day' < length
      · rw [if_pos hday']
        exact .inr ⟨rfl, h⟩
      · rw [if_neg hday']
        exact .inl (le_fst_splitMonth rest (month + 1) _)
    · rw [if_neg hday, if_neg (by omega)]
      exact ih (month + 1) (by omega)

/-! ## Dates -/

/-- The order of dates: by year, month and day. -/
def Date.Before (d d' : Date) : Prop :=
  d.year < d'.year ∨ d.year = d'.year ∧ (d.month < d'.month ∨ d.month = d'.month ∧ d.day < d'.day)

/-- The date of a later day is the later one. -/
theorem Date.before_ofDay {day day' : Int} (h : day < day') : (Date.ofDay day).Before (Date.ofDay day') := by
  rcases (yearOfDay_mono h.le).lt_or_eq with hyear | hyear
  · exact .inl hyear
  · have hstart := daysBeforeYear_yearOfDay_le day
    have hrest : (day - daysBeforeYear (yearOfDay day)).toNat < (day' - daysBeforeYear (yearOfDay day)).toNat := by omega
    refine .inr ⟨hyear, ?_⟩
    simp only [Date.ofDay, ← hyear]
    rcases splitMonth_lt (monthLengths (yearOfDay day)) 1 hrest with hmonth | ⟨hmonth, hday⟩
    · exact .inl hmonth
    · exact .inr ⟨hmonth, Nat.succ_lt_succ hday⟩

theorem Date.ofDay_within (day : Int) : (Date.ofDay day).month ≤ 12 ∧ (Date.ofDay day).day ≤ 31 := by
  have hstart := daysBeforeYear_yearOfDay_le day
  have hend := lt_daysBeforeYear_yearOfDay day
  have hsum := sum_monthLengths (yearOfDay day)
  have hrest : (day - daysBeforeYear (yearOfDay day)).toNat < (monthLengths (yearOfDay day)).sum := by omega
  obtain ⟨hmonth, hday⟩ := splitMonth_within (fun _ => length_le_of_mem_monthLengths) 1 hrest
  exact ⟨Nat.le_of_lt_succ hmonth, hday⟩

end EventCamera.Calendar
