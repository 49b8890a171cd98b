import EventCamera.Proofs.Recording.ReadBack
import Mathlib
/-!
# Numbers in order

Texts are compared character by character. Of two texts that begin with equally long pieces the first difference decides
(`append_lt_append_of_lt`), so numbers that are filled up to one width sort like the numbers, whatever follows them
(`Decimal.paddedDigits_append_lt`), and rows of numbers in columns sort column by column
(`Decimal.inColumns_append_lt`).
-/

namespace EventCamera

/-- What comes first decides, if it is equally long. -/
theorem append_lt_append_of_lt {l₁ l₂ : List Char} (hlength : l₁.length = l₂.length) (h : l₁ < l₂)
    (r₁ r₂ : List Char) : l₁ ++ r₁ < l₂ ++ r₂ := by
  induction l₁ generalizing l₂ with
  | nil =>
    rw [List.length_nil] at hlength
    rw [List.eq_nil_of_length_eq_zero hlength.symm] at h
    exact absurd h (List.lt_irrefl _)
  | cons c cs ih =>
    cases l₂ with
    | nil => exact absurd h (List.not_lt_nil _)
    | cons d ds =>
      rcases List.cons_lt_cons_iff.1 h with hlt | ⟨rfl, hlt⟩
      · exact List.cons_lt_cons_iff.2 (.inl hlt)
      · exact List.cons_lt_cons_iff.2 (.inr ⟨rfl, ih (Nat.succ.inj hlength) hlt⟩)

/-! ## Numbers -/

namespace Decimal

variable {width m n : Nat} {cs ds : List Char}

theorem ofDigitChars_cons (c : Char) (cs : List Char) :
    Nat.ofDigitChars 10 (c :: cs) 0 = 10 ^ cs.length * (c.toNat - '0'.toNat) + Nat.ofDigitChars 10 cs 0 := by
  rw [Nat.ofDigitChars_cons, Nat.ofDigitChars_eq_ofDigitChars_zero, Nat.mul_zero, Nat.zero_add]

theorem isDigit_bounds {c : Char} (h : c.isDigit = true) : '0'.toNat ≤ c.toNat ∧ c.toNat ≤ '9'.toNat := by
  simp only [Char.isDigit, Bool.and_eq_true, decide_eq_true_eq] at h
  exact ⟨UInt32.le_iff_toNat_le.1 h.1, UInt32.le_iff_toNat_le.1 h.2⟩

/-- So many digits cannot stand for more. -/
theorem ofDigitChars_lt (h : ∀ c ∈ cs, c.isDigit = true) : Nat.ofDigitChars 10 cs 0 < 10 ^ cs.length := by
  induction cs with
  | nil => simp
  | cons c cs ih =>
    obtain ⟨hc, hcs⟩ := List.forall_mem_cons.1 h
    have hdigit : c.toNat - '0'.toNat + 1 ≤ 10 := by
      have hbounds := isDigit_bounds hc
      have h₀ : '0'.toNat = 48 := rfl
      have h₉ : '9'.toNat = 57 := rfl
      omega
    calc Nat.ofDigitChars 10 (c :: cs) 0
        = 10 ^ cs.length * (c.toNat - '0'.toNat) + Nat.ofDigitChars 10 cs 0 := ofDigitChars_cons c cs
      _ < 10 ^ cs.length * (c.toNat - '0'.toNat) + 10 ^ cs.length := Nat.add_lt_add_left (ih hcs) _
      _ = 10 ^ cs.length * (c.toNat - '0'.toNat + 1) := (Nat.mul_succ _ _).symm
      _ ≤ 10 ^ cs.length * 10 := Nat.mul_le_mul_left _ hdigit
      _ = 10 ^ (c :: cs).length := by rw [List.length_cons, Nat.pow_succ]

/-- Of two equally long rows of digits, the one that stands for less comes first. -/
theorem lt_of_ofDigitChars_lt (hcs : ∀ c ∈ cs, c.isDigit = true) (hds : ∀ d ∈ ds, d.isDigit = true)
    (hlength : cs.length = ds.length) (h : Nat.ofDigitChars 10 cs 0 < Nat.ofDigitChars 10 ds 0) : cs < ds := by
  induction cs generalizing ds with
  | nil =>
    rw [List.length_nil] at hlength
    rw [List.eq_nil_of_length_eq_zero hlength.symm] at h
    exact absurd h (Nat.lt_irrefl _)
  | cons c cs ih =>
    cases ds with
    | nil => cases hlength
    | cons d ds =>
      obtain ⟨hc, hcs'⟩ := List.forall_mem_cons.1 hcs
      obtain ⟨hd, hds'⟩ := List.forall_mem_cons.1 hds
      rw [List.length_cons, List.length_cons, Nat.add_right_cancel_iff] at hlength
      rw [ofDigitChars_cons, ofDigitChars_cons, hlength] at h
      have hd₀ := (isDigit_bounds hd).1
      rcases Nat.lt_trichotomy c.toNat d.toNat with hlt | heq | hgt
      · exact List.cons_lt_cons_iff.2 (.inl hlt)
      · obtain rfl := Char.toNat_inj.1 heq
        exact List.cons_lt_cons_iff.2 (.inr ⟨rfl, ih hcs' hds' hlength (Nat.lt_of_add_lt_add_left h)⟩)
      · -- the first digit outweighs all that follow
        have hstep : 10 ^ ds.length * (d.toNat - '0'.toNat + 1) ≤ 10 ^ ds.length * (c.toNat - '0'.toNat) :=
          Nat.mul_le_mul_left _ (by omega)
        have hrest := ofDigitChars_lt hds'
        rw [Nat.mul_succ] at hstep
        omega

theorem length_paddedDigits (hn : n < 10 ^ width) (hwidth : 0 < width) : (paddedDigits width n).length = width := by
  have hdigits : (digits n).length ≤ width := (Nat.length_toDigits_le_iff (by omega) hwidth).2 hn
  rw [paddedDigits, List.length_append, List.length_replicate]
  omega

theorem ofDigitChars_paddedDigits (width n : Nat) : Nat.ofDigitChars 10 (paddedDigits width n) 0 = n := by
  rw [paddedDigits, ofDigitChars_replicate, digits, Nat.ofDigitChars_ten_toDigits]

/-- Numbers of one width sort as numbers, whatever follows. -/
theorem paddedDigits_append_lt (h : m < n) (hn : n < 10 ^ width) (hwidth : 0 < width) (r₁ r₂ : List Char) :
    paddedDigits width m ++ r₁ < paddedDigits width n ++ r₂ := by
  have hlength : (paddedDigits width m).length = (paddedDigits width n).length := by
    rw [length_paddedDigits (h.trans hn) hwidth, length_paddedDigits hn hwidth]
  refine append_lt_append_of_lt hlength ?_ r₁ r₂
  refine lt_of_ofDigitChars_lt (fun _ => isDigit_of_mem_paddedDigits) (fun _ => isDigit_of_mem_paddedDigits) hlength ?_
  rwa [ofDigitChars_paddedDigits, ofDigitChars_paddedDigits]

/-! ## Columns -/

/-- A mark, and then room for a number of so many digits. -/
structure Column where
  mark : String
  width : Nat

def Column.Fits (column : Column) (n : Nat) : Prop := 0 < column.width ∧ n < 10 ^ column.width

/-- Numbers in columns, each behind its mark. -/
def inColumns : List Column → List Nat → List Char
  | column :: columns, n :: ns => column.mark.toList ++ (paddedDigits column.width n ++ inColumns columns ns)
  | _, _ => []

/-- Rows of numbers sort column by column, whatever follows. -/
theorem inColumns_append_lt {columns : List Column} {ms ns : List Nat} (hms : List.Forall₂ Column.Fits columns ms)
    (hns : List.Forall₂ Column.Fits columns ns) (h : ms < ns) (r₁ r₂ : List Char) :
    inColumns columns ms ++ r₁ < inColumns columns ns ++ r₂ := by
  induction hms generalizing ns with
  | nil =>
    cases hns
    exact absurd h (List.lt_irrefl _)
  | @cons column m columns ms hm hms ih =>
    obtain _ | ⟨hn, hns⟩ := hns
    simp only [inColumns, List.append_assoc]
    refine List.append_left_lt ?_
    rcases List.cons_lt_cons_iff.1 h with hlt | ⟨rfl, hlt⟩
    · exact paddedDigits_append_lt hlt hn.2 hn.1 _ _
    · exact List.append_left_lt (ih hns hlt)

theorem narrow_inColumns {columns : List Column} (h : ∀ column ∈ columns, Bytes.Narrow column.mark.toList)
    (ns : List Nat) : Bytes.Narrow (inColumns columns ns) := by
  induction columns generalizing ns with
  | nil =>
    cases ns <;> exact nofun
  | cons column columns ih =>
    obtain ⟨hmark, hrest⟩ := List.forall_mem_cons.1 h
    cases ns with
    | nil => exact nofun
    | cons n ns => exact hmark.append ((narrow_paddedDigits _ n).append (ih hrest ns))

end Decimal

end EventCamera
