import EventCamera.Proofs.Json.Fields
import EventCamera.Proofs.Json.Soundness
/-!
# Sensor data are read back

`sensor_data_read_back`: events, sizes, directions, what is told about biases and the settings of the synthetic camera
are read back from their text as they were. They are read from many more texts; whichever it was, once written the datum
is read as the same and written alike.

What a datum is read from is said without the reader, by its forms. A number, a text or a truth value has one form
(`PlainStored`), a direction has two, and a record has all that give its fields (`Gives`). For each type
`load?_eq_some_iff` says that the forms are loaded and nothing else; the texts that are accepted are then the JSON of the
forms (`JsonValue.Spells`).
-/

namespace EventCamera

namespace Stored

variable {v : JsonValue}

/-! ## Plain types -/

/-- A datum is loaded from its stored form only. -/
class PlainStored (α : Type) [Stored α] : Prop extends LawfulStored α where
  eq_store_of_load? {v : JsonValue} {a : α} (h : load? v = some a) : v = store a

theorem load?_eq_some_iff {α : Type} [Stored α] [PlainStored α] {a : α} : load? v = some a ↔ v = store a :=
  ⟨PlainStored.eq_store_of_load?, fun h => h ▸ load?_store a⟩

theorem boundedInt?_eq_some_iff {lo hi i : Int} : boundedInt? lo hi v = some i ↔ v = .integer i ∧ lo ≤ i ∧ i ≤ hi := by
  constructor
  · intro h
    unfold boundedInt? at h
    split at h
    · split at h
      · next hi =>
        obtain rfl := Option.some.inj h
        exact ⟨rfl, hi⟩
      · cases h
    · cases h
  · rintro ⟨rfl, h⟩
    exact boundedInt?_integer h

instance : PlainStored UInt16 where
  eq_store_of_load? h := by
    obtain ⟨i, hi, rfl⟩ := Option.map_eq_some_iff.1 h
    obtain ⟨rfl, hlo, hhi⟩ := boundedInt?_eq_some_iff.1 hi
    simp only [store, JsonValue.integer.injEq, UInt16.toNat_ofNat', Nat.toUInt16_eq]
    omega

instance : PlainStored UInt32 where
  eq_store_of_load? h := by
    obtain ⟨i, hi, rfl⟩ := Option.map_eq_some_iff.1 h
    obtain ⟨rfl, hlo, hhi⟩ := boundedInt?_eq_some_iff.1 hi
    simp only [store, JsonValue.integer.injEq, UInt32.toNat_ofNat', Nat.toUInt32_eq]
    omega

instance : PlainStored UInt64 where
  eq_store_of_load? h := by
    obtain ⟨i, hi, rfl⟩ := Option.map_eq_some_iff.1 h
    obtain ⟨rfl, hlo, hhi⟩ := boundedInt?_eq_some_iff.1 hi
    simp only [store, JsonValue.integer.injEq, UInt64.toNat_ofNat', Nat.toUInt64_eq]
    omega

instance : PlainStored Int32 where
  eq_store_of_load? h := by
    obtain ⟨i, hi, rfl⟩ := Option.map_eq_some_iff.1 h
    obtain ⟨rfl, hlo, hhi⟩ := boundedInt?_eq_some_iff.1 hi
    simp only [store]
    rw [Int32.toInt_ofInt_of_le (by omega) (by omega)]

instance : PlainStored Int64 where
  eq_store_of_load? h := by
    obtain ⟨i, hi, rfl⟩ := Option.map_eq_some_iff.1 h
    obtain ⟨rfl, hlo, hhi⟩ := boundedInt?_eq_some_iff.1 hi
    simp only [store]
    rw [Int64.toInt_ofInt_of_le (by omega) (by omega)]

instance : PlainStored Bool where
  eq_store_of_load? {v b} h := by
    cases v with
    | bool b =>
      cases h
      rfl
    | _ => cases h

instance : PlainStored String where
  eq_store_of_load? {v s} h := by
    cases v with
    | string s =>
      cases h
      rfl
    | _ => cases h

theorem required_eq_some_iff {α : Type} [Stored α] [PlainStored α] {a : α} {field : Option JsonValue} :
    required field = some a ↔ field = some (store a) := by
  simp [required, Option.bind_eq_some_iff, load?_eq_some_iff]

/-- A field of a record has its value, or it is missing and has its usual value. -/
def Usually {α : Type} [Stored α] (usual a : α) (field : Option JsonValue) : Prop :=
  field = some (store a) ∨ field = none ∧ a = usual

theorem optional_eq_some_iff {α : Type} [Stored α] [PlainStored α] {usual a : α} {field : Option JsonValue} :
    optional usual field = some a ↔ Usually usual a field := by
  cases field with
  | some v => simp [optional, Usually, load?_eq_some_iff]
  | none => simp [optional, Usually, eq_comm]

end Stored

open Stored

variable {v : JsonValue}

/-! ## Forms -/

/-- A direction is given by its name, alone or as the name of the only member of an object. -/
inductive Polarity.Form (p : Polarity) : JsonValue → Prop where
  | name : Form p (.string p.name)
  | member : Form p (.object [(p.name, .null)])

def Geometry.Form (g : Geometry) : JsonValue → Prop :=
  Gives [("width", some (store g.width)), ("height", some (store g.height))]

def Event.Form (e : Event) (v : JsonValue) : Prop :=
  ∃ polarity, e.polarity.Form polarity ∧
    Gives [("x", some (store e.x)), ("y", some (store e.y)), ("polarity", some polarity), ("t", some (store e.t))] v

def BiasRange.Form (r : BiasRange) : JsonValue → Prop :=
  Gives [("min", some (store r.min)), ("max", some (store r.max))]

def BiasInfo.Form (i : BiasInfo) (v : JsonValue) : Prop :=
  ∃ recommended allowed, i.recommended.Form recommended ∧ i.allowed.Form allowed ∧
    Gives [("recommended", some recommended), ("allowed", some allowed), ("modifiable", some (store i.modifiable)),
      ("description", some (store i.description)), ("category", some (store i.category))] v

def SyntheticSettings.Form (s : SyntheticSettings) (v : JsonValue) : Prop :=
  ∃ width height count interval seed biases,
    Usually standard.width s.width width ∧ Usually standard.height s.height height ∧
    Usually standard.eventsPerBatch s.eventsPerBatch count ∧ Usually standard.batchInterval s.batchInterval interval ∧
    Usually standard.seed s.seed seed ∧ Usually standard.biases s.biases biases ∧
    Gives [("width", width), ("height", height), ("events_per_batch", count), ("batch_interval_us", interval),
      ("seed", seed), ("biases", biases)] v

theorem Polarity.ofName?_eq_some_iff {name : String} {p : Polarity} : ofName? name = some p ↔ name = p.name := by
  unfold ofName?
  split_ifs with hon hoff
  · subst hon
    cases p <;> decide
  · subst hoff
    cases p <;> decide
  · cases p <;> simp [Polarity.name, hon, hoff]

theorem Polarity.load?_eq_some_iff {p : Polarity} : load? v = some p ↔ p.Form v := by
  constructor
  · intro h
    simp only [load?] at h
    split at h
    · obtain rfl := ofName?_eq_some_iff.1 h
      exact .name
    · obtain rfl := ofName?_eq_some_iff.1 h
      exact .member
    · cases h
  · rintro (_ | _) <;> exact ofName?_eq_some_iff.2 rfl

theorem Polarity.required_eq_some_iff {p : Polarity} {field : Option JsonValue} :
    required field = some p ↔ ∃ v, field = some v ∧ p.Form v := by
  simp only [required, Option.bind_eq_some_iff, Polarity.load?_eq_some_iff]

theorem Geometry.load?_eq_some_iff {g : Geometry} : load? v = some g ↔ g.Form v := by
  constructor
  · intro h
    simp only [load?] at h
    split at h
    · next width height hfields =>
      simp only [Option.bind_eq_bind, Option.bind_eq_some_iff, required_eq_some_iff] at h
      obtain ⟨_, rfl, _, rfl, h⟩ := h
      cases h
      exact fields?_eq_some_iff.1 hfields
    · cases h
  · intro h
    have hfields : fields? ["width", "height"] v = _ := fields?_eq_some_iff.2 h
    simp only [load?, hfields, List.map_cons, List.map_nil, required_eq_some_iff.2 rfl]
    rfl

theorem Event.load?_eq_some_iff {e : Event} : load? v = some e ↔ e.Form v := by
  constructor
  · intro h
    simp only [load?] at h
    split at h
    · next x y polarity t hfields =>
      simp only [Option.bind_eq_bind, Option.bind_eq_some_iff, required_eq_some_iff, Polarity.required_eq_some_iff] at h
      obtain ⟨_, rfl, _, rfl, _, ⟨_, rfl, hpolarity⟩, _, rfl, h⟩ := h
      cases h
      exact ⟨_, hpolarity, fields?_eq_some_iff.1 hfields⟩
    · cases h
  · rintro ⟨polarity, hpolarity, h⟩
    have hfields : fields? ["x", "y", "polarity", "t"] v = _ := fields?_eq_some_iff.2 h
    have hload := Polarity.required_eq_some_iff.2 ⟨_, rfl, hpolarity⟩
    simp only [load?, hfields, List.map_cons, List.map_nil, hload, required_eq_some_iff.2 rfl]
    rfl

theorem BiasRange.load?_eq_some_iff {r : BiasRange} : load? v = some r ↔ r.Form v := by
  constructor
  · intro h
    simp only [load?] at h
    split at h
    · next min max hfields =>
      simp only [Option.bind_eq_bind, Option.bind_eq_some_iff, required_eq_some_iff] at h
      obtain ⟨_, rfl, _, rfl, h⟩ := h
      cases h
      exact fields?_eq_some_iff.1 hfields
    · cases h
  · intro h
    have hfields : fields? ["min", "max"] v = _ := fields?_eq_some_iff.2 h
    simp only [load?, hfields, List.map_cons, List.map_nil, required_eq_some_iff.2 rfl]
    rfl

theorem BiasRange.required_eq_some_iff {r : BiasRange} {field : Option JsonValue} :
    required field = some r ↔ ∃ v, field = some v ∧ r.Form v := by
  simp only [required, Option.bind_eq_some_iff, BiasRange.load?_eq_some_iff]

theorem BiasInfo.load?_eq_some_iff {i : BiasInfo} : load? v = some i ↔ i.Form v := by
  constructor
  · intro h
    simp only [load?] at h
    split at h
    · next recommended allowed modifiable description category hfields =>
      simp only [Option.bind_eq_bind, Option.bind_eq_some_iff, required_eq_some_iff, BiasRange.required_eq_some_iff] at h
      obtain ⟨_, ⟨_, rfl, hrecommended⟩, _, ⟨_, rfl, hallowed⟩, _, rfl, _, rfl, _, rfl, h⟩ := h
      cases h
      exact ⟨_, _, hrecommended, hallowed, fields?_eq_some_iff.1 hfields⟩
    · cases h
  · rintro ⟨recommended, allowed, hrecommended, hallowed, h⟩
    have hfields : fields? ["recommended", "allowed", "modifiable", "description", "category"] v = _ :=
      fields?_eq_some_iff.2 h
    have hload := BiasRange.required_eq_some_iff.2 ⟨_, rfl, hrecommended⟩
    have hload' := BiasRange.required_eq_some_iff.2 ⟨_, rfl, hallowed⟩
    simp only [load?, hfields, List.map_cons, List.map_nil, hload, hload', required_eq_some_iff.2 rfl]
    rfl

theorem SyntheticSettings.load?_eq_some_iff {s : SyntheticSettings} : load? v = some s ↔ s.Form v := by
  constructor
  · intro h
    simp only [load?] at h
    split at h
    · next width height count interval seed biases hfields =>
      simp only [Option.bind_eq_bind, Option.bind_eq_some_iff, optional_eq_some_iff] at h
      obtain ⟨_, hwidth, _, hheight, _, hcount, _, hinterval, _, hseed, _, hbiases, h⟩ := h
      cases h
      exact ⟨_, _, _, _, _, _, hwidth, hheight, hcount, hinterval, hseed, hbiases, fields?_eq_some_iff.1 hfields⟩
    · cases h
  · rintro ⟨width, height, count, interval, seed, biases, hwidth, hheight, hcount, hinterval, hseed, hbiases, h⟩
    have hfields : fields? ["width", "height", "events_per_batch", "batch_interval_us", "seed", "biases"] v = _ :=
      fields?_eq_some_iff.2 h
    simp only [load?, hfields, List.map_cons, List.map_nil, optional_eq_some_iff.2 hwidth,
      optional_eq_some_iff.2 hheight, optional_eq_some_iff.2 hcount, optional_eq_some_iff.2 hinterval,
      optional_eq_some_iff.2 hseed, optional_eq_some_iff.2 hbiases]
    rfl

/-! ## Stored forms -/

instance : LawfulStored Polarity where
  native p := .string p.name
  load?_store _ := Polarity.load?_eq_some_iff.2 .name

instance : LawfulStored Geometry where
  native g := by
    refine .object _ ?_
    simp only [List.forall_mem_cons]
    exact ⟨native _, native _, nofun⟩
  load?_store _ := Geometry.load?_eq_some_iff.2 (gives_object [(_, _), (_, _)] (by simp))

instance : LawfulStored Event where
  native e := by
    refine .object _ ?_
    simp only [List.forall_mem_cons]
    exact ⟨native _, native _, native _, native _, nofun⟩
  load?_store _ := Event.load?_eq_some_iff.2 ⟨_, .name, gives_object [(_, _), (_, _), (_, _), (_, _)] (by simp)⟩

theorem BiasRange.form_store (r : BiasRange) : r.Form (store r) := gives_object [(_, _), (_, _)] (by simp)

instance : LawfulStored BiasRange where
  native r := by
    refine .object _ ?_
    simp only [List.forall_mem_cons]
    exact ⟨native _, native _, nofun⟩
  load?_store r := BiasRange.load?_eq_some_iff.2 r.form_store

instance : LawfulStored BiasInfo where
  native i := by
    refine .object _ ?_
    simp only [List.forall_mem_cons]
    exact ⟨native _, native _, native _, native _, native _, nofun⟩
  load?_store i := BiasInfo.load?_eq_some_iff.2 ⟨_, _, i.recommended.form_store, i.allowed.form_store,
    gives_object [(_, _), (_, _), (_, _), (_, _), (_, _)] (by simp)⟩

/-! ## Texts -/

/-- What is written is read back, the texts that are read are the JSON of the forms, and a datum that was read from any
of them is the same after it has been written and read once more, and has the same text. -/
structure ReadBack (α : Type) [Stored α] (Form : α → JsonValue → Prop) : Prop where
  written (a : α) : Stored.read? α (compact a) = some a
  accepted (text : String) (a : α) :
    Stored.read? α text = some a ↔ ∃ v : JsonValue, v.Spells text.toList ∧ Form a v
  rewritten (text : String) (a : α) (h : Stored.read? α text = some a) :
    ∃ again : α, Stored.read? α (compact a) = some again ∧ again = a ∧ compact again = compact a

theorem readBack_of_forms {α : Type} [Stored α] [LawfulStored α] {Form : α → JsonValue → Prop}
    (h : ∀ {v : JsonValue} {a : α}, load? v = some a ↔ Form a v) : ReadBack α Form where
  written := read?_compact_of_lawful
  accepted text a := by simp only [Stored.read?, Option.bind_eq_some_iff, JsonValue.read?_eq_some_iff, h]
  rewritten _ a _ := ⟨a, read?_compact_of_lawful a, rfl, rfl⟩

/-- All sensor data are read back from their text. They are read from more texts than that, which differ in blanks, in
the spelling of strings, in the order of members, by members that are not known, or are arrays, and none of this is left
once they have been written. -/
theorem sensor_data_read_back :
    ReadBack Event Event.Form ∧ ReadBack Geometry Geometry.Form ∧ ReadBack Polarity Polarity.Form ∧
    ReadBack BiasRange BiasRange.Form ∧ ReadBack BiasInfo BiasInfo.Form ∧
    ReadBack SyntheticSettings SyntheticSettings.Form :=
  ⟨readBack_of_forms Event.load?_eq_some_iff, readBack_of_forms Geometry.load?_eq_some_iff,
    readBack_of_forms Polarity.load?_eq_some_iff, readBack_of_forms BiasRange.load?_eq_some_iff,
    readBack_of_forms BiasInfo.load?_eq_some_iff, readBack_of_forms SyntheticSettings.load?_eq_some_iff⟩

example : Stored.read? Event " [3, 4, \x7b\"On\" : null\x7d, -7]" = some ⟨3, 4, .on, -7⟩ := by cbv

end EventCamera
