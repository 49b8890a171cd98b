import EventCamera.Proofs.Json.Lawful
/-!
# The fields of a record

What a record is read from, said without the reader. Among the members of an object a field is `Given` if its name stands
there once, or not at all; members of other names and the order do not matter. A value `Gives` the fields if it is such
an object, or an array of the fields in order, of which the last ones may be missing. `fields?_eq_some_iff`: these are
the values that the fields of a record are read from.
-/

namespace EventCamera

namespace Stored

variable {name : String} {members members' : List (String × JsonValue)}

/-! ## One field -/

/-- There is one member of that name and it has the value, or there is none. -/
def Given (name : String) (members : List (String × JsonValue)) (value : Option JsonValue) : Prop :=
  members.filter (·.1 == name) = value.toList.map (name, ·)

theorem Given.member?_eq {value : Option JsonValue} (h : Given name members value) :
    member? name members = some value := by
  rw [member?, h]
  cases value <;> rfl

theorem member?_eq_some_iff {value : Option JsonValue} : member? name members = some value ↔ Given name members value := by
  refine ⟨fun h => ?_, Given.member?_eq⟩
  unfold member? at h
  split at h
  · next hnone =>
    obtain rfl := Option.some.inj h
    exact hnone
  · next found v hone =>
    obtain rfl := Option.some.inj h
    have hmem : (found, v) ∈ members.filter (·.1 == name) := by simp [hone]
    obtain rfl : found = name := by simpa using (List.mem_filter.1 hmem).2
    exact hone
  · cases h

/-- Neither the order of members matters nor a member of another name. -/
theorem member?_congr (h : (members.filter (·.1 == name)).Perm (members'.filter (·.1 == name))) :
    member? name members = member? name members' := by
  unfold member?
  generalize members.filter (·.1 == name) = found, members'.filter (·.1 == name) = found' at h
  have hlength := h.length_eq
  rcases found with _ | ⟨m, _ | ⟨next, found⟩⟩
  · rw [List.nil_perm.1 h]
  · rw [List.singleton_perm.1 h]
  · rcases found' with _ | ⟨m', _ | ⟨next', found'⟩⟩
    · cases hlength
    · cases hlength
    · rfl

theorem member?_cons_of_ne {other : String} (h : other ≠ name) (v : JsonValue) :
    member? name ((other, v) :: members) = member? name members := by
  have hne : ¬ (other == name) = true := by simpa using h
  rw [member?, member?, List.filter_cons, if_neg hne]

theorem member?_of_repeated (h : 2 ≤ (members.map Prod.fst).count name) : member? name members = none := by
  have hlength : 2 ≤ (members.filter (·.1 == name)).length := by
    rwa [List.count, List.countP_map, List.countP_eq_length_filter] at h
  unfold member?
  generalize members.filter (·.1 == name) = found at hlength
  rcases found with _ | ⟨m, _ | ⟨next, found⟩⟩
  · cases hlength
  · simp at hlength
  · rfl

/-! ## All fields -/

/-- The value gives the fields of a record. -/
inductive Gives (fields : List (String × Option JsonValue)) : JsonValue → Prop where
  /-- An object gives each field under its name. -/
  | object {members : List (String × JsonValue)} (h : ∀ field ∈ fields, Given field.1 members field.2) :
      Gives fields (.object members)
  /-- An array gives the fields in order, those at the end not at all. -/
  | array {items : List JsonValue} {missing : Nat}
      (h : fields.map Prod.snd = items.map some ++ List.replicate missing none) : Gives fields (.array items)

variable {fields : List (String × Option JsonValue)}

theorem mapM_member?_eq_some_iff :
    (fields.map Prod.fst).mapM (member? · members) = some (fields.map Prod.snd) ↔
      ∀ field ∈ fields, Given field.1 members field.2 := by
  induction fields with
  | nil => simp
  | cons field fields ih =>
    rw [List.forall_mem_cons, ← ih, ← member?_eq_some_iff]
    simp only [List.map_cons, List.mapM_cons, Option.bind_eq_bind, Option.pure_def, Option.bind_eq_some_iff,
      Option.some.injEq, List.cons.injEq]
    constructor
    · rintro ⟨_, hfield, _, hfields, rfl, rfl⟩
      exact ⟨hfield, hfields⟩
    · rintro ⟨hfield, hfields⟩
      exact ⟨_, hfield, _, hfields, rfl, rfl⟩

theorem fields?_eq_some_iff {v : JsonValue} :
    fields? (fields.map Prod.fst) v = some (fields.map Prod.snd) ↔ Gives fields v := by
  constructor
  · intro h
    unfold fields? at h
    split at h
    · exact .object (mapM_member?_eq_some_iff.1 h)
    · split at h
      · exact .array (Option.some.inj h).symm
      · cases h
    · cases h
  · rintro (h | @⟨items, missing, h⟩)
    · exact mapM_member?_eq_some_iff.2 h
    · have hlength := congrArg List.length h
      simp only [List.length_map, List.length_append, List.length_replicate] at hlength
      have hle : items.length ≤ (fields.map Prod.fst).length := by
        rw [List.length_map]
        omega
      have hmissing : (fields.map Prod.fst).length - items.length = missing := by
        rw [List.length_map]
        omega
      rw [fields?, if_pos hle, hmissing, h]

/-- An object that has every name once gives its members as fields. -/
theorem gives_object (members : List (String × JsonValue)) (h : (members.map Prod.fst).Nodup) :
    Gives (members.map fun m => (m.1, some m.2)) (.object members) := by
  refine .object fun field hfield => ?_
  obtain ⟨m, hm, rfl⟩ := List.mem_map.1 hfield
  exact member?_eq_some_iff.1 (member?_of_mem h hm)

end Stored

end EventCamera
