import Mathlib.Data.List.TakeWhile
/-!
# Texts cut at a mark

Names, lines and headers are read up to a mark. What stands before the first one is read whole, and what follows it is
left (`takeWhile_bne_append`, `dropWhile_bne_append`).
-/

namespace EventCamera

variable {α : Type} [BEq α] [LawfulBEq α] {mark : α} {before : List α}

theorem bne_of_notMem (h : mark ∉ before) : ∀ x ∈ before, (x != mark) = true := by
  intro x hx
  rw [bne_iff_ne]
  rintro rfl
  exact h hx

theorem takeWhile_bne_append (h : mark ∉ before) (rest : List α) :
    (before ++ mark :: rest).takeWhile (· != mark) = before := by
  rw [List.takeWhile_append_of_pos (bne_of_notMem h), List.takeWhile_cons_of_neg (by simp), List.append_nil]

theorem dropWhile_bne_append (h : mark ∉ before) (rest : List α) :
    (before ++ mark :: rest).dropWhile (· != mark) = mark :: rest := by
  rw [List.dropWhile_append_of_pos (bne_of_notMem h), List.dropWhile_cons_of_neg (by simp)]

end EventCamera
