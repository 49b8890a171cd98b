import EventCamera.Text.Bytes
import Mathlib
/-!
# Text of one-byte characters

Digits, and the letters and marks that names and headers are made of, are one byte each. A text of such characters has
a byte for each of them (`Narrow.ofChars_eq`), tells them again (`Narrow.chars_ofChars`) and comes before another one
exactly as its bytes do (`ofChars_lt_ofChars`).
-/

namespace EventCamera.Bytes

/-- Text of which each character is one byte. -/
def Narrow (cs : List Char) : Prop := ∀ c ∈ cs, c.utf8Size = 1

instance (cs : List Char) : Decidable (Narrow cs) :=
  decidable_of_iff (cs.all (·.utf8Size == 1) = true) (by simp [Narrow])

variable {cs ds : List Char}

theorem Narrow.append (h : Narrow cs) (h' : Narrow ds) : Narrow (cs ++ ds) :=
  List.forall_mem_append.2 ⟨h, h'⟩

theorem utf8Size_of_isDigit {c : Char} (h : c.isDigit = true) : c.utf8Size = 1 := by
  rw [Char.utf8Size_eq_one_iff]
  simp only [Char.isDigit, Bool.and_eq_true, decide_eq_true_eq] at h
  exact UInt32.le_trans h.2 (by decide)

theorem narrow_of_isDigit (h : ∀ c ∈ cs, c.isDigit = true) : Narrow cs := fun c hc => utf8Size_of_isDigit (h c hc)

theorem Narrow.utf8Len_eq (h : Narrow cs) : String.utf8Len cs = cs.length := by
  induction cs with
  | nil => rfl
  | cons c cs ih =>
    obtain ⟨hc, hcs⟩ := List.forall_mem_cons.1 h
    rw [String.utf8Len_cons, ih hcs, hc, List.length_cons]

theorem ofText_eq (s : String) : ofText s = ofChars s.toList := by
  rw [← ofText_ofList, String.ofList_toList]

theorem ofChars_append (cs ds : List Char) : ofChars (cs ++ ds) = ofChars cs ++ ofChars ds := List.flatMap_append

theorem Narrow.ofChars_eq (h : Narrow cs) : ofChars cs = cs.map Char.toUInt8 := by
  have hbyte : ∀ c ∈ cs, String.utf8EncodeChar c = [c.toUInt8] := fun c hc =>
    String.utf8EncodeChar_eq_singleton (h c hc)
  rw [ofChars, List.flatMap_congr hbyte, List.map_eq_flatMap]

theorem toNat_toUInt8 {c : Char} (h : c.utf8Size = 1) : c.toUInt8.toNat = c.toNat := by
  have hle : c.val.toNat ≤ 127 := UInt32.le_iff_toNat_le.1 (Char.utf8Size_eq_one_iff.1 h)
  show c.val.toUInt8.toNat = c.val.toNat
  rw [UInt32.toNat_toUInt8]
  omega

/-- The characters can be told from the bytes. -/
theorem Narrow.chars_ofChars (h : Narrow cs) : (ofChars cs).map (fun b => Char.ofNat b.toNat) = cs := by
  have hchar : ∀ c ∈ cs, Char.ofNat c.toUInt8.toNat = c := fun c hc => by
    rw [toNat_toUInt8 (h c hc), Char.ofNat_toNat]
  rw [h.ofChars_eq, List.map_map]
  exact (List.map_congr_left hchar).trans (List.map_id _)

theorem toUInt8_ofNat (b : UInt8) : (Char.ofNat b.toNat).toUInt8 = b := by
  have hvalid : b.toNat.isValidChar := .inl (b.toNat_lt.trans (by omega))
  have hcode : (Char.ofNat b.toNat).toNat = b.toNat := by rw [Char.toNat_ofNat, if_pos hvalid]
  refine UInt8.toNat_inj.1 ?_
  show (Char.ofNat b.toNat).val.toUInt8.toNat = b.toNat
  rw [UInt32.toNat_toUInt8]
  show (Char.ofNat b.toNat).toNat % 2 ^ 8 = b.toNat
  rw [hcode]
  exact Nat.mod_eq_of_lt b.toNat_lt

/-- Bytes that tell one-byte characters are those of the text. -/
theorem ofChars_chars {bytes : Bytes} (h : Narrow (bytes.map fun b => Char.ofNat b.toNat)) :
    ofChars (bytes.map fun b => Char.ofNat b.toNat) = bytes := by
  rw [h.ofChars_eq, List.map_map]
  exact (List.map_congr_left fun b _ => toUInt8_ofNat b).trans (List.map_id _)

theorem toUInt8_inj {c d : Char} (hc : c.utf8Size = 1) (hd : d.utf8Size = 1) (h : c.toUInt8 = d.toUInt8) : c = d := by
  rw [← Char.toNat_inj, ← toNat_toUInt8 hc, ← toNat_toUInt8 hd, h]

theorem ofChars_lt_ofChars (hcs : Narrow cs) (hds : Narrow ds) (h : cs < ds) : ofChars cs < ofChars ds := by
  rw [hcs.ofChars_eq, hds.ofChars_eq]
  induction cs generalizing ds with
  | nil =>
    cases ds with
    | nil => exact absurd h (List.lt_irrefl _)
    | cons d ds => exact List.nil_lt_cons _ _
  | cons c cs ih =>
    cases ds with
    | nil => exact absurd h (List.not_lt_nil _)
    | cons d ds =>
      obtain ⟨hc, hcs'⟩ := List.forall_mem_cons.1 hcs
      obtain ⟨hd, hds'⟩ := List.forall_mem_cons.1 hds
      rcases List.cons_lt_cons_iff.1 h with hlt | ⟨rfl, hlt⟩
      · refine List.cons_lt_cons_iff.2 (.inl ?_)
        rw [UInt8.lt_iff_toNat_lt, toNat_toUInt8 hc, toNat_toUInt8 hd]
        exact hlt
      · exact List.cons_lt_cons_iff.2 (.inr ⟨rfl, ih hcs' hds' hlt⟩)

/-- Texts of one-byte characters are stored in their order. -/
theorem ofText_lt_ofText {s t : String} (hs : Narrow s.toList) (ht : Narrow t.toList) (h : s.toList < t.toList) :
    ofText s < ofText t := by
  rw [ofText_eq, ofText_eq]
  exact ofChars_lt_ofChars hs ht h

end EventCamera.Bytes
