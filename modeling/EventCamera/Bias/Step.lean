import EventCamera.Bias.Range
/-!
# Steps

The step by which a bias is adjusted is chosen from a list, with a cursor that stops at either end.
-/

namespace EventCamera

/-- A cursor over the steps on offer. -/
structure StepSelector where
  options : Array BiasValue
  index : Nat
  index_lt : index < options.size

namespace StepSelector

def standardSteps : List BiasValue := [1, 5, 10, 20, 50]

def standard : StepSelector := ⟨standardSteps.toArray, 0, by decide⟩

instance : Inhabited StepSelector := ⟨standard⟩

/-- A cursor on the first of the given steps; without any, on the usual ones. -/
def ofList (steps : List BiasValue) : StepSelector :=
  if h : 0 < steps.toArray.size then ⟨steps.toArray, 0, h⟩ else standard

def current : StepSelector → BiasValue
  | ⟨options, index, _⟩ => options[index]

/-- Moves to the next step, unless this is the last. -/
def up (s : StepSelector) : StepSelector :=
  if h : s.index + 1 < s.options.size then { s with index := s.index + 1, index_lt := h } else s

/-- Moves to the step before, unless this is the first. -/
def down (s : StepSelector) : StepSelector :=
  { s with index := s.index - 1, index_lt := Nat.lt_of_le_of_lt (Nat.sub_le ..) s.index_lt }

/-- The steps on offer, with slashes between them. -/
def text (s : StepSelector) : String := "/".intercalate (s.options.toList.map BiasValue.text)

end StepSelector

end EventCamera
