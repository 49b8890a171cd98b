import EventCamera.Text.Decimal
import EventCamera.Window
/-!
# Text of a recorded window

One line per kept event: the column, a space and the row.
-/

namespace EventCamera

namespace Event

/-- The line of an event. -/
def line (e : Event) : List Char :=
  Decimal.digits e.x.toNat ++ ' ' :: Decimal.digits e.y.toNat ++ ['\n']

end Event

namespace Window

/-- The lines of the kept events, in order. -/
def text (w : Window) : List Char := w.events.toList.flatMap Event.line

end Window

/-- The coordinates that a recorded text lists: on each line two numbers with a space between. -/
def readCoordinates? (text : List Char) : Option (List (Nat × Nat)) :=
  match _h : text with
  | [] => some []
  | _ :: _ =>
    let x := text.takeWhile (· != ' ')
    let afterX := (text.dropWhile (· != ' ')).drop 1
    let y := afterX.takeWhile (· != '\n')
    match _hy : afterX.dropWhile (· != '\n') with
    | [] => none
    | _ :: rest =>
      match Decimal.readNat? x, Decimal.readNat? y with
      | some x, some y => (readCoordinates? rest).map ((x, y) :: ·)
      | _, _ => none
termination_by text.length
decreasing_by
  have h₁ : rest.length + 1 ≤ afterX.length := by
    have := (afterX.dropWhile_sublist (· != '\n')).length_le
    rw [_hy] at this
    simpa using this
  have h₂ : afterX.length ≤ text.length := by
    have := (text.dropWhile_sublist (· != ' ')).length_le
    simp only [afterX, List.length_drop]
    omega
  subst _h
  omega

end EventCamera
