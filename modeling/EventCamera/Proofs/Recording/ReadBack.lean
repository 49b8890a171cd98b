import EventCamera.Recording.Recorder
import EventCamera.Proofs.Files.Directory
import EventCamera.Proofs.Text.Bytes
import Mathlib
/-!
# Reading recorded files back

The name of a recorded window's file tells its number and its start (`readWindowFileName?_windowFileName`), so two
files of a directory collide only if both agree (`windowFileName_inj`). The text lists the coordinates of the kept
events (`Window.readCoordinates?_text`). The temporary sibling of such a file has a name that no recorded window
bears.
-/

namespace EventCamera

namespace Decimal

/-- Digits do not separate. -/
theorem notMem_of_isDigit {cs : List Char} (hcs : ∀ c ∈ cs, c.isDigit = true) {separator : Char}
    (hseparator : separator.isDigit = false) : separator ∉ cs := by
  intro hmem
  rw [hcs separator hmem] at hseparator
  cases hseparator

theorem isDigit_of_mem_paddedDigits {width n : Nat} {c : Char} (h : c ∈ paddedDigits width n) :
    c.isDigit = true := by
  rcases List.mem_append.1 h with h | h
  · rw [List.eq_of_mem_replicate h]
    rfl
  · exact isDigit_of_mem_digits h

theorem narrow_paddedDigits (width n : Nat) : Bytes.Narrow (paddedDigits width n) :=
  Bytes.narrow_of_isDigit fun _ => isDigit_of_mem_paddedDigits

/-- Zeros in front do not count. -/
theorem ofDigitChars_replicate (k : Nat) (cs : List Char) :
    Nat.ofDigitChars 10 (List.replicate k '0' ++ cs) 0 = Nat.ofDigitChars 10 cs 0 := by
  induction k with
  | zero => rfl
  | succ k ih =>
    rw [List.replicate_succ, List.cons_append, Nat.ofDigitChars_cons]
    exact ih

/-- What is written is read back. -/
theorem readNat?_paddedDigits (width n : Nat) : readNat? (paddedDigits width n) = some n := by
  have hall : (paddedDigits width n).all Char.isDigit = true :=
    List.all_eq_true.2 fun _ => isDigit_of_mem_paddedDigits
  have hne : (paddedDigits width n).isEmpty = false := by simp [paddedDigits, digits_ne_nil]
  rw [readNat?, hall, hne, paddedDigits, ofDigitChars_replicate]
  simp [digits, Nat.ofDigitChars_toDigits]

/-- A 64-bit number has at most twenty digits. -/
theorem length_digits_le {n : Nat} (h : n < 2 ^ 64) : (digits n).length ≤ 20 :=
  (Nat.length_toDigits_le_iff (by omega) (by omega)).2 (by omega)

theorem length_paddedDigits_le {width n : Nat} (hwidth : width ≤ 20) (h : n < 2 ^ 64) :
    (paddedDigits width n).length ≤ 20 := by
  have hn := length_digits_le h
  rw [paddedDigits, List.length_append, List.length_replicate]
  omega

theorem length_toList_ofInt_le {i : Int} (h : i.natAbs < 2 ^ 64) : (ofInt i).toList.length ≤ 21 := by
  have hi := length_digits_le h
  rw [toList_ofInt]
  split
  · rw [List.length_cons]
    omega
  · omega

theorem mem_ofInt {i : Int} {c : Char} (h : c ∈ (ofInt i).toList) : c.isDigit = true ∨ c = '-' := by
  rw [toList_ofInt] at h
  split at h
  · rcases List.mem_cons.1 h with h | h
    · exact .inr h
    · exact .inl (isDigit_of_mem_digits h)
  · exact .inl (isDigit_of_mem_digits h)

theorem unbroken_of_isDigit {text : String} (h : ∀ c ∈ text.toList, c.isDigit = true) : Path.Unbroken text :=
  ⟨fun hc => absurd (h _ hc) (by decide), fun hc => absurd (h _ hc) (by decide)⟩

theorem unbroken_padded (width n : Nat) : Path.Unbroken (padded width n) :=
  unbroken_of_isDigit fun _ hc => isDigit_of_mem_paddedDigits (by simpa [padded] using hc)

theorem unbroken_ofNat (n : Nat) : Path.Unbroken (ofNat n) :=
  unbroken_of_isDigit fun _ hc => isDigit_of_mem_digits (by simpa [ofNat] using hc)

theorem unbroken_ofInt (i : Int) : Path.Unbroken (ofInt i) := by
  have hminus : Path.Unbroken "-" := ⟨by decide, by decide⟩
  unfold ofInt
  split
  · exact hminus.append (unbroken_ofNat _)
  · exact unbroken_ofNat _

end Decimal

/-! ## Names -/

/-- The name of a recorded window's file without its extension. -/
def windowStem (counter : UInt64) (start : Timestamp) : String :=
  "frame_" ++ Decimal.padded 6 counter.toNat ++ "_t0_" ++ Decimal.ofInt start.toInt ++ "us"

/-- The name of the temporary file. -/
def windowSibling (counter : UInt64) (start : Timestamp) : String := windowStem counter start ++ "." ++ "tmp"

variable {counter counter' : UInt64} {start start' : Timestamp}

theorem windowFileName_eq (counter : UInt64) (start : Timestamp) :
    windowFileName counter start = windowStem counter start ++ "." ++ "txt" := by
  rw [← String.toList_inj]
  simp [windowFileName, windowStem]

theorem toList_windowFileName (counter : UInt64) (start : Timestamp) :
    (windowFileName counter start).toList = "frame_".toList ++ (Decimal.paddedDigits 6 counter.toNat ++
      ("_t0_".toList ++ ((Decimal.ofInt start.toInt).toList ++ "us.txt".toList))) := by
  simp [windowFileName, Decimal.padded]

/-- The name of a recorded window's file tells its number and its start. -/
theorem readWindowFileName?_windowFileName (counter : UInt64) (start : Timestamp) :
    readWindowFileName? (windowFileName counter start).toList = some (counter.toNat, start.toInt) := by
  have hgap : '_' ∉ Decimal.paddedDigits 6 counter.toNat :=
    Decimal.notMem_of_isDigit (fun _ => Decimal.isDigit_of_mem_paddedDigits) rfl
  have hfirst : ∀ rest : List Char, "frame_".toList.isPrefixOf? ("frame_".toList ++ rest) = some rest :=
    fun rest => List.isPrefixOf?_eq_some_iff_append_eq.2 rfl
  have hmiddle : ∀ rest : List Char, "_t0_".toList.isPrefixOf? ("_t0_".toList ++ rest) = some rest :=
    fun rest => List.isPrefixOf?_eq_some_iff_append_eq.2 rfl
  have hlast : ∀ front : List Char, "us.txt".toList.isSuffixOf? (front ++ "us.txt".toList) = some front :=
    fun front => List.isSuffixOf?_eq_some_iff_append_eq.2 rfl
  have htake : ∀ rest : List Char,
      (Decimal.paddedDigits 6 counter.toNat ++ ("_t0_".toList ++ rest)).takeWhile (· != '_') =
        Decimal.paddedDigits 6 counter.toNat := fun _ => takeWhile_bne_append hgap _
  have hdrop : ∀ rest : List Char,
      (Decimal.paddedDigits 6 counter.toNat ++ ("_t0_".toList ++ rest)).dropWhile (· != '_') =
        "_t0_".toList ++ rest := fun _ => dropWhile_bne_append hgap _
  simp only [readWindowFileName?, toList_windowFileName, hfirst, hmiddle, hlast, htake, hdrop,
    Decimal.readNat?_paddedDigits, Decimal.readInt?_toList_ofInt, bind, Option.bind, pure]

/-- Files of different windows collide only if number and start agree. -/
theorem windowFileName_inj :
    windowFileName counter start = windowFileName counter' start' ↔ counter = counter' ∧ start = start' := by
  constructor
  · intro h
    have hread := readWindowFileName?_windowFileName counter start
    rw [h, readWindowFileName?_windowFileName, Option.some_inj, Prod.mk_inj] at hread
    exact ⟨(UInt64.toNat_inj.1 hread.1).symm, (Int64.toInt_inj.1 hread.2).symm⟩
  · rintro ⟨rfl, rfl⟩
    rfl

/-- No recorded window bears the name of a temporary file. -/
theorem windowFileName_ne_windowSibling :
    windowFileName counter start ≠ windowSibling counter' start' := by
  intro h
  have hlast := congrArg (fun s => s.toList.getLast?) h
  simp [windowFileName_eq, windowSibling] at hlast

theorem unbroken_windowStem (counter : UInt64) (start : Timestamp) : Path.Unbroken (windowStem counter start) := by
  have hfirst : Path.Unbroken "frame_" := ⟨by decide, by decide⟩
  have hmiddle : Path.Unbroken "_t0_" := ⟨by decide, by decide⟩
  have hend : Path.Unbroken "us" := ⟨by decide, by decide⟩
  exact (((hfirst.append (Decimal.unbroken_padded 6 _)).append hmiddle).append (Decimal.unbroken_ofInt _)).append hend

theorem plain_windowFileName (counter : UInt64) (start : Timestamp) : Path.Plain (windowFileName counter start) := by
  rw [windowFileName_eq]
  exact (unbroken_windowStem counter start).plain_extended ⟨by decide, by decide⟩ (c := 'f') (by simp [windowStem])
    (by decide)

theorem plain_windowSibling (counter : UInt64) (start : Timestamp) : Path.Plain (windowSibling counter start) :=
  (unbroken_windowStem counter start).plain_extended ⟨by decide, by decide⟩ (c := 'f') (by simp [windowStem])
    (by decide)

theorem utf8ByteSize_windowSibling (counter : UInt64) (start : Timestamp) :
    (windowSibling counter start).utf8ByteSize = (windowFileName counter start).utf8ByteSize := by
  simp only [windowFileName_eq, windowSibling, String.utf8ByteSize_append]
  rfl

/-- Each character of the name is one byte. -/
theorem narrow_windowFileName (counter : UInt64) (start : Timestamp) :
    Bytes.Narrow (windowFileName counter start).toList := by
  have hfirst : Bytes.Narrow "frame_".toList := by decide
  have hmiddle : Bytes.Narrow "_t0_".toList := by decide
  have hend : Bytes.Narrow "us.txt".toList := by decide
  have hstart : Bytes.Narrow (Decimal.ofInt start.toInt).toList := by
    intro c hc
    rcases Decimal.mem_ofInt hc with h | rfl
    · exact Bytes.utf8Size_of_isDigit h
    · rfl
  rw [toList_windowFileName]
  exact hfirst.append ((Decimal.narrow_paddedDigits 6 _).append (hmiddle.append (hstart.append hend)))

/-- Names of recorded files are short. -/
theorem utf8ByteSize_windowFileName_le (counter : UInt64) (start : Timestamp) :
    (windowFileName counter start).utf8ByteSize ≤ 57 := by
  have hcounter : (Decimal.paddedDigits 6 counter.toNat).length ≤ 20 :=
    Decimal.length_paddedDigits_le (by omega) counter.toNat_lt
  have hstart : (Decimal.ofInt start.toInt).toList.length ≤ 21 := by
    have h₁ := start.minValue_le_toInt
    have h₂ := start.toInt_le
    have h₃ : Int64.minValue.toInt = -9223372036854775808 := by decide
    have h₄ : Int64.maxValue.toInt = 9223372036854775807 := by decide
    exact Decimal.length_toList_ofInt_le (by omega)
  have hframe : "frame_".toList.length = 6 := rfl
  have hmiddle : "_t0_".toList.length = 4 := rfl
  have hend : "us.txt".toList.length = 6 := rfl
  rw [← String.ofList_toList (s := windowFileName counter start), String.utf8ByteSize_ofList,
    (narrow_windowFileName counter start).utf8Len_eq, toList_windowFileName]
  simp only [List.length_append, hframe, hmiddle, hend]
  omega

/-- The temporary sibling of a recorded file. -/
theorem temporary_windowFileName (dir : Path) (counter : UInt64) (start : Timestamp) :
    FileTree.temporary (dir.child (windowFileName counter start)) = dir.child (windowSibling counter start) := by
  have hplain := plain_windowFileName counter start
  rw [windowFileName_eq] at hplain ⊢
  exact Path.withExtension_child dir hplain (plain_windowSibling counter start) (by simp [windowStem]) (by decide)

/-! ## Texts -/

namespace Window

/-- A line is read up to its end. -/
theorem readCoordinates?_line_append (e : Event) (rest : List Char) :
    readCoordinates? (e.line ++ rest) = (readCoordinates? rest).map ((e.x.toNat, e.y.toNat) :: ·) := by
  have hx : ' ' ∉ Decimal.digits e.x.toNat := Decimal.notMem_of_isDigit (fun _ => Decimal.isDigit_of_mem_digits) rfl
  have hy : '\n' ∉ Decimal.digits e.y.toNat := Decimal.notMem_of_isDigit (fun _ => Decimal.isDigit_of_mem_digits) rfl
  have hline : e.line ++ rest =
      Decimal.digits e.x.toNat ++ ' ' :: (Decimal.digits e.y.toNat ++ '\n' :: rest) := by
    simp [Event.line]
  have htakeX : (e.line ++ rest).takeWhile (· != ' ') = Decimal.digits e.x.toNat := by
    rw [hline, takeWhile_bne_append hx]
  have hdropX : ((e.line ++ rest).dropWhile (· != ' ')).drop 1 = Decimal.digits e.y.toNat ++ '\n' :: rest := by
    rw [hline, dropWhile_bne_append hx, List.drop_one, List.tail_cons]
  rw [readCoordinates?.eq_def]
  split
  · next hempty => simp [hline] at hempty
  · dsimp only
    split
    · next hend =>
      rw [hdropX, dropWhile_bne_append hy] at hend
      cases hend
    · next hend =>
      rw [hdropX, dropWhile_bne_append hy] at hend
      cases hend
      rw [htakeX, hdropX, takeWhile_bne_append hy, Decimal.readNat?_digits, Decimal.readNat?_digits]

/-- The text of a recorded window lists the coordinates of its events. -/
theorem readCoordinates?_text (w : Window) :
    readCoordinates? w.text = some (w.events.toList.map fun e => (e.x.toNat, e.y.toNat)) := by
  unfold text
  induction w.events.toList with
  | nil => simp [readCoordinates?]
  | cons e rest ih =>
    rw [List.flatMap_cons, readCoordinates?_line_append, ih]
    rfl

end Window

end EventCamera
