/-!
# Decimal numbers

Numbers are written without leading zeros, with a minus sign below zero, or padded with zeros to a
width. Reading takes one optional sign and at least one digit; leading zeros are allowed.
-/

namespace EventCamera.Decimal

/-- Digits of a number, the first one first. -/
def digits (n : Nat) : List Char := Nat.toDigits 10 n

def ofNat (n : Nat) : String := String.ofList (digits n)

def ofInt (i : Int) : String := if i < 0 then "-" ++ ofNat i.natAbs else ofNat i.natAbs

/-- Digits of a number, filled up with zeros to the given width. -/
def paddedDigits (width n : Nat) : List Char :=
  List.replicate (width - (digits n).length) '0' ++ digits n

/-- Text of a number, filled up with zeros to the given width. -/
def padded (width n : Nat) : String := String.ofList (paddedDigits width n)

/-- The number a non-empty list of digits stands for. -/
def readNat? (cs : List Char) : Option Nat :=
  if cs.isEmpty || !cs.all Char.isDigit then none else some (Nat.ofDigitChars 10 cs 0)

/-- The integer that an optional sign and at least one digit stand for. -/
def readInt? : List Char → Option Int
  | '-' :: cs => (readNat? cs).map fun n : Nat => -(n : Int)
  | '+' :: cs => (readNat? cs).map fun n : Nat => (n : Int)
  | cs => (readNat? cs).map fun n : Nat => (n : Int)

theorem isDigit_of_mem_digits {n : Nat} {c : Char} (h : c ∈ digits n) : c.isDigit = true :=
  Nat.isDigit_of_mem_toDigits (by omega) (by omega) h

theorem digits_ne_nil (n : Nat) : digits n ≠ [] := by
  have := Nat.length_toDigits_pos (b := 10) (n := n)
  intro h
  simp [digits] at h

/-- What is written is read back. -/
theorem readNat?_digits (n : Nat) : readNat? (digits n) = some n := by
  have h₁ : (digits n).all Char.isDigit = true :=
    List.all_eq_true.2 fun _ => isDigit_of_mem_digits
  have h₂ : (digits n).isEmpty = false := by simpa using digits_ne_nil n
  rw [readNat?, h₁, h₂]
  simp [digits, Nat.ofDigitChars_toDigits]

theorem toList_ofNat (n : Nat) : (ofNat n).toList = digits n := by
  simp [ofNat]

theorem toList_ofInt (i : Int) :
    (ofInt i).toList = if i < 0 then '-' :: digits i.natAbs else digits i.natAbs := by
  unfold ofInt
  split <;> simp [toList_ofNat]

/-- What is written is read back. -/
theorem readInt?_toList_ofInt (i : Int) : readInt? (ofInt i).toList = some i := by
  rw [toList_ofInt]
  split
  · next h =>
    have hi : -(i.natAbs : Int) = i := by omega
    rw [readInt?, readNat?_digits, Option.map_some, hi]
  · next h =>
    have hd : ∀ c ∈ digits i.natAbs, c ≠ '-' ∧ c ≠ '+' := by
      intro c hc
      have := isDigit_of_mem_digits hc
      constructor <;> rintro rfl <;> simp_all [Char.isDigit]
    have hr : readInt? (digits i.natAbs) = (readNat? (digits i.natAbs)).map fun n : Nat => (n : Int) := by
      unfold readInt?
      split
      · next cs heq => exact absurd rfl (hd '-' (by simp [heq])).1
      · next cs heq => exact absurd rfl (hd '+' (by simp [heq])).2
      · rfl
    have hi : (i.natAbs : Int) = i := by omega
    rw [hr, readNat?_digits, Option.map_some, hi]

end EventCamera.Decimal
