import EventCamera.Proofs.Text.Order
/-!
# Names of recorded windows

The name of a recorded window can be taken apart in one way only (`windowFileName_eq_iff`), into the number of the
window and its start. The numbers are filled up to six digits, so that up to 999999 the names of a run are in order
whatever the starts are (`windowFileName_lt`). `recorded_names_in_order` puts this together, with the names of the
temporary files.
-/

namespace EventCamera

variable {counter counter' : UInt64} {start start' : Timestamp}

theorem windowStem_inj : windowStem counter start = windowStem counter' start' ↔ counter = counter' ∧ start = start' := by
  rw [← windowFileName_inj, windowFileName_eq, windowFileName_eq, String.append_left_inj, String.append_left_inj]

theorem windowSibling_inj :
    windowSibling counter start = windowSibling counter' start' ↔ counter = counter' ∧ start = start' := by
  rw [← windowStem_inj, windowSibling, windowSibling, String.append_left_inj, String.append_left_inj]

/-- What separates the parts of a name is in no number. -/
theorem gap_notMem_ofInt (i : Int) : '_' ∉ (Decimal.ofInt i).toList := by
  intro h
  rcases Decimal.mem_ofInt h with h | h <;> cases h

theorem gap_notMem_paddedDigits (width n : Nat) : '_' ∉ Decimal.paddedDigits width n :=
  Decimal.notMem_of_isDigit (fun _ => Decimal.isDigit_of_mem_paddedDigits) rfl

/-- The marks of a name stand in one place only, so it has only these two parts. -/
theorem windowFileName_eq_iff {number text : String} :
    windowFileName counter start = "frame_" ++ number ++ "_t0_" ++ text ++ "us.txt" ↔
      number = Decimal.padded 6 counter.toNat ∧ text = Decimal.ofInt start.toInt := by
  constructor
  · intro h
    have hlist : Decimal.paddedDigits 6 counter.toNat ++ ("_t0_".toList ++ ((Decimal.ofInt start.toInt).toList ++
        "us.txt".toList)) = number.toList ++ ("_t0_".toList ++ (text.toList ++ "us.txt".toList)) := by
      have heq := congrArg String.toList h
      rw [toList_windowFileName] at heq
      simpa only [String.toList_append, List.append_assoc, List.append_cancel_left_eq] using heq
    have hnumber : '_' ∉ number.toList := by
      have hcount := congrArg (List.count '_') hlist
      simp only [List.count_append, List.count_eq_zero.2 (gap_notMem_ofInt _),
        List.count_eq_zero.2 (gap_notMem_paddedDigits _ _)] at hcount
      exact List.count_eq_zero.1 (by omega)
    have hfirst : ∀ {cs rest : List Char}, '_' ∉ cs → (cs ++ ("_t0_".toList ++ rest)).takeWhile (· != '_') = cs :=
      fun hcs => takeWhile_bne_append hcs _
    have hsame := congrArg (List.takeWhile (· != '_')) hlist
    rw [hfirst (gap_notMem_paddedDigits _ _), hfirst hnumber] at hsame
    rw [hsame, List.append_cancel_left_eq, List.append_cancel_left_eq, List.append_cancel_right_eq] at hlist
    exact ⟨String.toList_inj.1 (by rw [← hsame, Decimal.padded, String.toList_ofList]), (String.toList_inj.1 hlist).symm⟩
  · rintro ⟨rfl, rfl⟩
    rfl

/-- Up to 999999 the names come in the order of the numbers. -/
theorem windowFileName_lt (h : counter < counter') (hmost : counter' ≤ 999999) :
    Bytes.ofText (windowFileName counter start) < Bytes.ofText (windowFileName counter' start') := by
  have hnumbers : counter.toNat < counter'.toNat := UInt64.lt_iff_toNat_lt.1 h
  have hwidth : counter'.toNat < 10 ^ 6 := Nat.lt_succ_of_le (UInt64.le_iff_toNat_le.1 hmost)
  refine Bytes.ofText_lt_ofText (narrow_windowFileName _ _) (narrow_windowFileName _ _) ?_
  rw [toList_windowFileName, toList_windowFileName]
  exact List.append_left_lt (Decimal.paddedDigits_append_lt hnumbers hwidth (by omega) _ _)

/-- Whatever the number and the start of a recorded window are, its name is read back to both, and in whichever way the
name is cut at its marks the pieces are these two numbers in decimal. Different windows have different names and
different temporary siblings, which are named like them in any directory, and no window is named like a sibling. Up to
number 999999 the name of a lower number comes first, byte by byte, whatever the starts are. -/
theorem recorded_names_in_order (counter counter' : UInt64) (start start' : Timestamp) :
    let name := windowFileName counter start
    let name' := windowFileName counter' start'
    (readWindowFileName? name.toList = some (counter.toNat, start.toInt) ∧
      ∀ number text, name = "frame_" ++ number ++ "_t0_" ++ text ++ "us.txt" →
        Decimal.readNat? number.toList = some counter.toNat ∧ Decimal.readInt? text.toList = some start.toInt) ∧
    ((counter, start) ≠ (counter', start') →
      name ≠ name' ∧ windowSibling counter start ≠ windowSibling counter' start') ∧
    name ≠ windowSibling counter' start' ∧
    (∀ dir : Path, FileTree.temporary (dir.child name) = dir.child (windowSibling counter start)) ∧
    (counter < counter' → counter' ≤ 999999 → Bytes.ofText name < Bytes.ofText name') := by
  intro name name'
  refine ⟨⟨readWindowFileName?_windowFileName .., ?_⟩, ?_, windowFileName_ne_windowSibling,
    fun dir => temporary_windowFileName dir .., windowFileName_lt⟩
  · intro number text h
    obtain ⟨rfl, rfl⟩ := windowFileName_eq_iff.1 h
    refine ⟨?_, Decimal.readInt?_toList_ofInt _⟩
    rw [Decimal.padded, String.toList_ofList]
    exact Decimal.readNat?_paddedDigits ..
  · intro hne
    refine ⟨fun h => hne ?_, fun h => hne ?_⟩
    · obtain ⟨rfl, rfl⟩ := windowFileName_inj.1 h
      rfl
    · obtain ⟨rfl, rfl⟩ := windowSibling_inj.1 h
      rfl

/-- The last two numbers of six digits, with the least start and the greatest. -/
theorem recorded_names_in_order_at_the_ends :
    let name := windowFileName 999998 Timestamp.last
    let name' := windowFileName 999999 Int64.minValue
    name = "frame_" ++ "999998" ++ "_t0_" ++ "9223372036854775807" ++ "us.txt" ∧
      Decimal.readInt? "9223372036854775807".toList = some (2 ^ 63 - 1) ∧ name ≠ name' ∧
      windowSibling 999998 Timestamp.last ≠ windowSibling 999999 Int64.minValue ∧
      Bytes.ofText name < Bytes.ofText name' := by
  intro name name'
  have hname : name = "frame_" ++ "999998" ++ "_t0_" ++ "9223372036854775807" ++ "us.txt" := by decide +kernel
  obtain ⟨⟨-, hparts⟩, hdifferent, -, -, horder⟩ :=
    recorded_names_in_order 999998 999999 Timestamp.last Int64.minValue
  exact ⟨hname, (hparts _ _ hname).2, (hdifferent (by decide)).1, (hdifferent (by decide)).2,
    horder (by decide) (by decide)⟩

end EventCamera
