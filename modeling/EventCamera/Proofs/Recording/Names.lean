import EventCamera.Proofs.Recording.ReadBack
import EventCamera.Recording.Recorder
/-!
# Names of runs and captures

Runs and captures are named by a time. Whatever it is, its text has no slash and no zero in it, so the names are plain.
The names that are tried for one run are all different (`numberedRunName_inj`).
-/

namespace EventCamera

open EventCamera.Path

variable {now : Instant}

theorem unbroken_yearText (year : Int) : Unbroken (yearText year) := by
  have hminus : Unbroken "-" := ⟨by decide, by decide⟩
  have hplus : Unbroken "+" := ⟨by decide, by decide⟩
  unfold yearText
  split
  · exact hminus.append (Decimal.unbroken_padded 4 _)
  · split
    · exact Decimal.unbroken_padded 4 _
    · exact hplus.append (Decimal.unbroken_padded 4 _)

theorem unbroken_compactText (i : Instant) : Unbroken i.compactText := by
  have hgap : Unbroken "_" := ⟨by decide, by decide⟩
  have hdate := ((unbroken_yearText i.date.year).append (Decimal.unbroken_padded 2 i.date.month)).append
    (Decimal.unbroken_padded 2 i.date.day)
  exact (((hdate.append hgap).append (Decimal.unbroken_padded 2 i.hour)).append (Decimal.unbroken_padded 2 i.minute)).append
    (Decimal.unbroken_padded 2 i.second)

/-! ## Captures -/

/-- The name of a capture without its extension. -/
def captureStem (taken : Instant) : String :=
  "capture_" ++ taken.compactText ++ "_" ++ Decimal.padded 3 (taken.subsecond / 1000000)

/-- The name of the temporary file. -/
def captureSibling (taken : Instant) : String := captureStem taken ++ "." ++ "tmp"

theorem captureFileName_eq (taken : Instant) : captureFileName taken = captureStem taken ++ "." ++ "pgm" := by
  rw [← String.toList_inj]
  simp [captureFileName, captureStem]

theorem captureFileName_ne_captureSibling (taken : Instant) : captureFileName taken ≠ captureSibling taken := by
  intro h
  have hlast := congrArg (fun s : String => s.toList.getLast?) h
  simp [captureFileName_eq, captureSibling] at hlast

theorem unbroken_captureStem (taken : Instant) : Unbroken (captureStem taken) := by
  have hfirst : Unbroken "capture_" := ⟨by decide, by decide⟩
  have hgap : Unbroken "_" := ⟨by decide, by decide⟩
  exact ((hfirst.append (unbroken_compactText taken)).append hgap).append (Decimal.unbroken_padded 3 _)

theorem plain_captureFileName (taken : Instant) : Plain (captureFileName taken) := by
  rw [captureFileName_eq]
  exact (unbroken_captureStem taken).plain_extended ⟨by decide, by decide⟩ (c := 'c') (by simp [captureStem]) (by decide)

theorem plain_captureSibling (taken : Instant) : Plain (captureSibling taken) :=
  (unbroken_captureStem taken).plain_extended ⟨by decide, by decide⟩ (c := 'c') (by simp [captureStem]) (by decide)

/-- The temporary sibling of a capture. -/
theorem temporary_captureFileName (dir : Path) (taken : Instant) :
    FileTree.temporary (dir.child (captureFileName taken)) = dir.child (captureSibling taken) := by
  have hplain := plain_captureFileName taken
  rw [captureFileName_eq] at hplain ⊢
  exact Path.withExtension_child dir hplain (plain_captureSibling taken) (by simp [captureStem]) (by decide)

/-! ## Runs -/

/-- What is added to the name of a run that is taken. -/
def runSuffix : Nat → String
  | 0 => ""
  | k + 1 => "_" ++ Decimal.ofNat (k + 1)

theorem numberedRunName_eq (began : Instant) (k : Nat) :
    numberedRunName began k = "run_" ++ (began.compactText ++ runSuffix k) := by
  rw [← String.toList_inj]
  cases k <;> simp [numberedRunName, runDirectoryName, runSuffix]

theorem runSuffix_inj {j k : Nat} (h : runSuffix j = runSuffix k) : j = k := by
  have hlist := congrArg String.toList h
  match j, k with
  | 0, 0 => rfl
  | 0, k + 1 => simp [runSuffix] at hlist
  | j + 1, 0 => simp [runSuffix] at hlist
  | j + 1, k + 1 =>
    have hdigits : Decimal.digits (j + 1) = Decimal.digits (k + 1) := by
      simpa [runSuffix, Decimal.ofNat] using hlist
    have hread := congrArg Decimal.readNat? hdigits
    rw [Decimal.readNat?_digits, Decimal.readNat?_digits] at hread
    exact Option.some.inj hread

/-- No name is tried twice for one run. -/
theorem numberedRunName_inj {j k : Nat} (h : numberedRunName now j = numberedRunName now k) : j = k := by
  rw [numberedRunName_eq, numberedRunName_eq] at h
  have hlist := congrArg String.toList h
  simp only [String.toList_append, List.append_cancel_left_eq, String.toList_inj] at hlist
  exact runSuffix_inj hlist

theorem unbroken_runSuffix (k : Nat) : Unbroken (runSuffix k) := by
  cases k with
  | zero => exact ⟨by decide, by decide⟩
  | succ k =>
    have hgap : Unbroken "_" := ⟨by decide, by decide⟩
    exact hgap.append (Decimal.unbroken_ofNat (k + 1))

theorem plain_numberedRunName (began : Instant) (k : Nat) : Plain (numberedRunName began k) := by
  have hfirst : Unbroken "run_" := ⟨by decide, by decide⟩
  rw [numberedRunName_eq]
  exact (hfirst.append ((unbroken_compactText began).append (unbroken_runSuffix k))).plain (c := 'r') (by simp)
    (by decide)

end EventCamera
