import EventCamera.Json.SensorData
import EventCamera.Proofs.Json.RoundTrip
/-!
# Stored types whose data are read back

`LawfulStored` says of a stored type that a datum is loaded from its stored form; with the text of that form it is
`read?_compact_of_lawful` and `read?_pretty_of_lawful`. The plain types are lawful, lists are if their items are, and a
record is read field by field, since its stored form has every name once (`fields?_object`).
-/

namespace EventCamera

/-- What is stored holds nothing foreign, and is loaded again. -/
class LawfulStored (α : Type) [Stored α] : Prop where
  native (a : α) : (store a).Native
  load?_store (a : α) : load? (store a) = some a

namespace Stored

export LawfulStored (native load?_store)

variable {α : Type} [Stored α] [LawfulStored α]

/-! ## Texts -/

theorem read?_compact_of_lawful (a : α) : Stored.read? α (compact a) = some a := by
  rw [Stored.read?, compact, JsonValue.read?_compact (native a), Option.bind_some, load?_store]

theorem read?_pretty_of_lawful (a : α) : Stored.read? α (pretty a) = some a := by
  rw [Stored.read?, pretty, JsonValue.read?_pretty (native a), Option.bind_some, load?_store]

/-! ## Plain types -/

theorem boundedInt?_integer {lo hi i : Int} (h : lo ≤ i ∧ i ≤ hi) : boundedInt? lo hi (.integer i) = some i := by
  rw [boundedInt?, if_pos h]

instance : LawfulStored UInt16 where
  native n := .integer _
  load?_store n := by
    have h := n.toNat_lt
    simp only [store, load?]
    rw [boundedInt?_integer (by omega)]
    simp

instance : LawfulStored UInt32 where
  native n := .integer _
  load?_store n := by
    have h := n.toNat_lt
    simp only [store, load?]
    rw [boundedInt?_integer (by omega)]
    simp

instance : LawfulStored UInt64 where
  native n := .integer _
  load?_store n := by
    have h := n.toNat_lt
    simp only [store, load?]
    rw [boundedInt?_integer (by omega)]
    simp

instance : LawfulStored Int32 where
  native n := .integer _
  load?_store n := by
    have h₁ := n.le_toInt
    have h₂ := n.toInt_lt
    simp only [store, load?]
    rw [boundedInt?_integer (by omega)]
    simp

instance : LawfulStored Int64 where
  native n := .integer _
  load?_store n := by
    have h₁ := n.le_toInt
    have h₂ := n.toInt_lt
    simp only [store, load?]
    rw [boundedInt?_integer (by omega)]
    simp

instance : LawfulStored Bool := ⟨fun b => .bool b, fun _ => rfl⟩

instance : LawfulStored String := ⟨fun s => .string s, fun _ => rfl⟩

instance : LawfulStored Path := ⟨fun p => .string p.text, fun _ => rfl⟩

instance : LawfulStored (List α) where
  native as := by
    refine .array _ fun v hv => ?_
    obtain ⟨a, -, rfl⟩ := List.mem_map.1 hv
    exact native a
  load?_store as := by
    show (as.map store).mapM load? = some as
    induction as with
    | nil => rfl
    | cons a as ih => simp [load?_store, ih]

/-- Nothing is told from something by `null`. -/
theorem lawful_option (h : ∀ a : α, store a ≠ .null) : LawfulStored (Option α) where
  native
    | none => .null
    | some a => native a
  load?_store
    | none => rfl
    | some a => by
      have hload := load?_store a
      have hnull := h a
      simp only [store, load?]
      generalize Stored.store a = v at hload hnull
      cases v with
      | null => exact absurd rfl hnull
      | _ => rw [hload, Option.map_some]

instance : LawfulStored (Option Path) := lawful_option fun _ h => by cases h

/-! ## Records -/

theorem filter_eq_singleton {members : List (String × JsonValue)} (h : (members.map Prod.fst).Nodup)
    {m : String × JsonValue} (hm : m ∈ members) : members.filter (·.1 == m.1) = [m] := by
  induction members with
  | nil => cases hm
  | cons first members ih =>
    rw [List.map_cons, List.nodup_cons] at h
    rcases List.mem_cons.1 hm with rfl | hm
    · have hrest : members.filter (·.1 == m.1) = [] := by
        rw [List.filter_eq_nil_iff]
        intro other hother heq
        exact h.1 (beq_iff_eq.1 heq ▸ List.mem_map_of_mem hother)
      rw [List.filter_cons, if_pos (beq_self_eq_true m.1), hrest]
    · have hne : ¬ (first.1 == m.1) = true := fun heq => h.1 (beq_iff_eq.1 heq ▸ List.mem_map_of_mem hm)
      rw [List.filter_cons, if_neg hne, ih h.2 hm]

theorem member?_of_mem {members : List (String × JsonValue)} (h : (members.map Prod.fst).Nodup)
    {m : String × JsonValue} (hm : m ∈ members) : member? m.1 members = some (some m.2) := by
  rw [member?, filter_eq_singleton h hm]

/-- From an object that has every name once the fields are read in any order that is asked for. -/
theorem fields?_object {members : List (String × JsonValue)} (h : (members.map Prod.fst).Nodup)
    (fields : List (String × JsonValue)) (hfields : ∀ m ∈ fields, m ∈ members) :
    fields? (fields.map Prod.fst) (.object members) = some (fields.map fun m => some m.2) := by
  show (fields.map Prod.fst).mapM (member? · members) = _
  induction fields with
  | nil => rfl
  | cons m fields ih =>
    have hm := member?_of_mem h (hfields m List.mem_cons_self)
    have hrest := ih fun other hother => hfields other (List.mem_cons_of_mem m hother)
    simp only [List.map_cons, List.mapM_cons, hm, hrest]
    rfl

theorem optional_store (default a : α) : optional default (some (store a)) = some a := load?_store a

instance : LawfulStored SyntheticSettings where
  native s := by
    refine .object _ ?_
    simp only [List.forall_mem_cons]
    exact ⟨native _, native _, native _, native _, native _, native _, nofun⟩
  load?_store s := by
    have h : fields? ["width", "height", "events_per_batch", "batch_interval_us", "seed", "biases"] (store s) =
        some [some (store s.width), some (store s.height), some (store s.eventsPerBatch),
          some (store s.batchInterval), some (store s.seed), some (store s.biases)] :=
      fields?_object (by simp) [(_, _), (_, _), (_, _), (_, _), (_, _), (_, _)] fun _ => id
    simp only [load?, h, optional_store]
    rfl

end Stored

end EventCamera
