import EventCamera.Proofs.Json.Fields
import EventCamera.Proofs.Json.Soundness
import EventCamera.Proofs.Settings
/-!
# Settings that a file names

`Settings.named_only`: a settings file changes what it names and nothing else. Its members may stand in any order, with
others among them that mean nothing here; the settings are the usual ones with those members replaced, if the program can
run with them. A member that is known and stands twice spoils the file, and so does a name that is no text.

A record is loaded field by field (`Settings.load?_object`), and of a field only the members of its name matter
(`member?_congr`).
-/

namespace EventCamera

open Stored

/-! ## Fields -/

namespace Stored

variable {α : Type} [Stored α] {name : String} {members members' : List (String × JsonValue)}

/-- The datum of a field, from its member or by default. -/
def field (default : α) (name : String) (members : List (String × JsonValue)) : Option α :=
  (member? name members).bind (optional default)

/-- A member counts by what is loaded from its value. -/
theorem field_cons_congr {default : α} {v v' : JsonValue} (h : (load? v : Option α) = load? v') :
    field default name ((name, v) :: members) = field default name ((name, v') :: members) := by
  have hself : (name == name) = true := beq_self_eq_true name
  rw [field, field, member?, member?, List.filter_cons, List.filter_cons, if_pos hself, if_pos hself]
  cases members.filter (·.1 == name) with
  | nil => exact h
  | cons m rest => rfl

/-- A member from which nothing is loaded spoils the field. -/
theorem field_of_mem {default : α} {v : JsonValue} (hmem : (name, v) ∈ members) (h : (load? v : Option α) = none) :
    field default name members = none := by
  have hfound : (name, v) ∈ members.filter (·.1 == name) := List.mem_filter.2 ⟨hmem, beq_self_eq_true name⟩
  rw [field, member?]
  generalize members.filter (·.1 == name) = found at hfound
  rcases found with _ | ⟨m, _ | ⟨next, found⟩⟩
  · cases hfound
  · obtain rfl := List.mem_singleton.1 hfound
    exact h
  · rfl

theorem Given.field_eq [LawfulStored α] {a : Option α} (h : Given name members (a.map store)) (default : α) :
    field default name members = some (a.getD default) := by
  rw [field, h.member?_eq, Option.bind_some]
  cases a with
  | none => rfl
  | some a => exact optional_store default a

end Stored

/-! ## The synthetic camera -/

namespace SyntheticSettings

variable {members members' : List (String × JsonValue)}

def memberNames : List String := ["width", "height", "events_per_batch", "batch_interval_us", "seed", "biases"]

def ofMembers? (members : List (String × JsonValue)) : Option SyntheticSettings := do
  let d := standard
  some ⟨← field d.width "width" members, ← field d.height "height" members,
    ← field d.eventsPerBatch "events_per_batch" members, ← field d.batchInterval "batch_interval_us" members,
    ← field d.seed "seed" members, ← field d.biases "biases" members⟩

theorem load?_object (members : List (String × JsonValue)) : load? (.object members) = ofMembers? members := by
  simp only [load?, fields?, List.mapM_cons, List.mapM_nil, ofMembers?, field]
  -- a member that stands twice spoils the record
  rcases member? "width" members with _ | width
  · simp
  rcases member? "height" members with _ | height
  · simp
  rcases member? "events_per_batch" members with _ | count
  · simp
  rcases member? "batch_interval_us" members with _ | interval
  · simp
  rcases member? "seed" members with _ | seed
  · simp
  rcases member? "biases" members with _ | biases
  · simp
  rfl

theorem ofMembers?_congr (h : ∀ name ∈ memberNames, member? name members = member? name members') :
    ofMembers? members = ofMembers? members' := by
  simp only [memberNames, List.forall_mem_cons] at h
  obtain ⟨hwidth, hheight, hcount, hinterval, hseed, hbiases, -⟩ := h
  simp only [ofMembers?, field, hwidth, hheight, hcount, hinterval, hseed, hbiases]

theorem ofMembers?_of_repeated {name : String} (hname : name ∈ memberNames)
    (h : 2 ≤ (members.map Prod.fst).count name) : ofMembers? members = none := by
  have hnone := member?_of_repeated h
  simp only [memberNames, List.mem_cons, List.not_mem_nil, or_false] at hname
  rcases hname with rfl | rfl | rfl | rfl | rfl | rfl <;> simp [ofMembers?, field, hnone]

/-- What is to be set. -/
structure Overrides where
  width : Option UInt32
  height : Option UInt32
  eventsPerBatch : Option UInt64
  batchInterval : Option UInt64
  seed : Option UInt64
  biases : Option Bool

namespace Overrides

def onto (o : Overrides) (s : SyntheticSettings) : SyntheticSettings where
  width := o.width.getD s.width
  height := o.height.getD s.height
  eventsPerBatch := o.eventsPerBatch.getD s.eventsPerBatch
  batchInterval := o.batchInterval.getD s.batchInterval
  seed := o.seed.getD s.seed
  biases := o.biases.getD s.biases

/-- The members name what is to be set, once, and nothing else that is known. -/
structure NamedBy (o : Overrides) (members : List (String × JsonValue)) : Prop where
  width : Given "width" members (o.width.map store)
  height : Given "height" members (o.height.map store)
  eventsPerBatch : Given "events_per_batch" members (o.eventsPerBatch.map store)
  batchInterval : Given "batch_interval_us" members (o.batchInterval.map store)
  seed : Given "seed" members (o.seed.map store)
  biases : Given "biases" members (o.biases.map store)

theorem NamedBy.load?_eq {o : Overrides} (h : o.NamedBy members) :
    load? (.object members) = some (o.onto standard) := by
  rw [load?_object, ofMembers?]
  simp only [h.width.field_eq, h.height.field_eq, h.eventsPerBatch.field_eq, h.batchInterval.field_eq,
    h.seed.field_eq, h.biases.field_eq]
  rfl

end Overrides

end SyntheticSettings

/-! ## All settings -/

namespace Settings

variable {members members' : List (String × JsonValue)}

def memberNames : List String :=
  ["window_duration_us", "max_queue_size", "output_root", "display_interval", "bias_steps", "synthetic", "stats_path"]

def ofMembers? (members : List (String × JsonValue)) : Option Settings := do
  let d := standard
  some ⟨← field d.windowMicros "window_duration_us" members, ← field d.queueCapacity "max_queue_size" members,
    ← field d.outputRoot "output_root" members, ← field d.displayInterval "display_interval" members,
    ← field d.biasSteps "bias_steps" members, ← field d.synthetic "synthetic" members,
    ← field d.statsPath "stats_path" members⟩

theorem load?_object (members : List (String × JsonValue)) : load? (.object members) = ofMembers? members := by
  simp only [load?, fields?, List.mapM_cons, List.mapM_nil, ofMembers?, field]
  -- a member that stands twice spoils the record
  rcases member? "window_duration_us" members with _ | windowMicros
  · simp
  rcases member? "max_queue_size" members with _ | queueCapacity
  · simp
  rcases member? "output_root" members with _ | outputRoot
  · simp
  rcases member? "display_interval" members with _ | displayInterval
  · simp
  rcases member? "bias_steps" members with _ | biasSteps
  · simp
  rcases member? "synthetic" members with _ | synthetic
  · simp
  rcases member? "stats_path" members with _ | statsPath
  · simp
  rfl

theorem ofMembers?_congr (h : ∀ name ∈ memberNames, name ≠ "synthetic" → member? name members = member? name members')
    (hsynthetic : field standard.synthetic "synthetic" members = field standard.synthetic "synthetic" members') :
    ofMembers? members = ofMembers? members' := by
  simp only [memberNames, List.forall_mem_cons] at h
  obtain ⟨hwindow, hqueue, hroot, hdisplay, hsteps, -, hstats, -⟩ := h
  simp only [ofMembers?, hsynthetic]
  simp only [field, hwindow (by decide), hqueue (by decide), hroot (by decide), hdisplay (by decide),
    hsteps (by decide), hstats (by decide)]

theorem ofMembers?_congr_of_members (h : ∀ name ∈ memberNames, member? name members = member? name members') :
    ofMembers? members = ofMembers? members' :=
  ofMembers?_congr (fun name hname _ => h name hname) (by rw [field, h _ (by decide), ← field])

theorem ofMembers?_of_repeated {name : String} (hname : name ∈ memberNames)
    (h : 2 ≤ (members.map Prod.fst).count name) : ofMembers? members = none := by
  have hnone := member?_of_repeated h
  simp only [memberNames, List.mem_cons, List.not_mem_nil, or_false] at hname
  rcases hname with rfl | rfl | rfl | rfl | rfl | rfl | rfl <;> simp [ofMembers?, field, hnone]

theorem ofMembers?_of_synthetic (h : field standard.synthetic "synthetic" members = none) :
    ofMembers? members = none := by
  simp [ofMembers?, h]

/-- What is to be set. -/
structure Overrides where
  windowMicros : Option Int64
  queueCapacity : Option UInt64
  outputRoot : Option Path
  displayInterval : Option UInt64
  biasSteps : Option (List BiasValue)
  synthetic : Option SyntheticSettings.Overrides
  statsPath : Option (Option Path)

namespace Overrides

def onto (o : Overrides) (s : Settings) : Settings where
  windowMicros := o.windowMicros.getD s.windowMicros
  queueCapacity := o.queueCapacity.getD s.queueCapacity
  outputRoot := o.outputRoot.getD s.outputRoot
  displayInterval := o.displayInterval.getD s.displayInterval
  biasSteps := o.biasSteps.getD s.biasSteps
  synthetic := (o.synthetic.map (·.onto s.synthetic)).getD s.synthetic
  statsPath := o.statsPath.getD s.statsPath

/-- The members name what is to be set, once, and nothing else that is known. What is to be set of the synthetic camera
is named by an object. -/
structure NamedBy (o : Overrides) (members : List (String × JsonValue)) : Prop where
  windowMicros : Given "window_duration_us" members (o.windowMicros.map store)
  queueCapacity : Given "max_queue_size" members (o.queueCapacity.map store)
  outputRoot : Given "output_root" members (o.outputRoot.map store)
  displayInterval : Given "display_interval" members (o.displayInterval.map store)
  biasSteps : Given "bias_steps" members (o.biasSteps.map store)
  synthetic : ∃ value, Given "synthetic" members value ∧
    Option.Rel (fun inner v => ∃ members, v = .object members ∧ inner.NamedBy members) o.synthetic value
  statsPath : Given "stats_path" members (o.statsPath.map store)

theorem NamedBy.synthetic_eq {o : Overrides} (h : o.NamedBy members) :
    field standard.synthetic "synthetic" members = some (o.onto standard).synthetic := by
  obtain ⟨value, hgiven, hvalue⟩ := h.synthetic
  rw [field, hgiven.member?_eq, onto]
  generalize o.synthetic = inner at hvalue
  cases hvalue with
  | none => rfl
  | some hvalue =>
    obtain ⟨members, rfl, hinner⟩ := hvalue
    exact hinner.load?_eq

theorem NamedBy.load?_eq {o : Overrides} (h : o.NamedBy members) :
    load? (.object members) = some (o.onto standard) := by
  rw [load?_object, ofMembers?]
  simp only [h.windowMicros.field_eq, h.queueCapacity.field_eq, h.outputRoot.field_eq, h.displayInterval.field_eq,
    h.biasSteps.field_eq, h.synthetic_eq, h.statsPath.field_eq]
  rfl

end Overrides

/-- The second list of members says the same as the first: members change places, or one is put in that is not known,
among all members or among those of the synthetic camera. -/
inductive Rearranged : List (String × JsonValue) → List (String × JsonValue) → Prop where
  | permuted {members members' : List (String × JsonValue)} (h : members.Perm members') : Rearranged members members'
  | inserted {members : List (String × JsonValue)} {name : String} (h : name ∉ memberNames) (v : JsonValue) :
      Rearranged members ((name, v) :: members)
  | permutedWithin {members inner inner' : List (String × JsonValue)} (h : inner.Perm inner') :
      Rearranged (("synthetic", .object inner) :: members) (("synthetic", .object inner') :: members)
  | insertedWithin {members inner : List (String × JsonValue)} {name : String}
      (h : name ∉ SyntheticSettings.memberNames) (v : JsonValue) :
      Rearranged (("synthetic", .object inner) :: members) (("synthetic", .object ((name, v) :: inner)) :: members)
  | symm {members members' : List (String × JsonValue)} (h : Rearranged members members') : Rearranged members' members
  | trans {members middle members' : List (String × JsonValue)} (h : Rearranged members middle)
      (h' : Rearranged middle members') : Rearranged members members'

theorem ofMembers?_within {inner inner' : List (String × JsonValue)}
    (h : SyntheticSettings.ofMembers? inner = SyntheticSettings.ofMembers? inner') :
    ofMembers? (("synthetic", .object inner) :: members) = ofMembers? (("synthetic", .object inner') :: members) := by
  refine ofMembers?_congr (fun name _ hname => ?_) (field_cons_congr ?_)
  · rw [member?_cons_of_ne hname.symm, member?_cons_of_ne hname.symm]
  · rw [SyntheticSettings.load?_object, h, SyntheticSettings.load?_object]

/-- What says the same is loaded alike. -/
theorem Rearranged.ofMembers?_eq (h : Rearranged members members') : ofMembers? members = ofMembers? members' := by
  induction h with
  | permuted h => exact ofMembers?_congr_of_members fun name _ => member?_congr (h.filter (·.1 == name))
  | @inserted members name h v =>
    refine ofMembers?_congr_of_members fun other hother => (member?_cons_of_ne ?_ v).symm
    rintro rfl
    exact h hother
  | permutedWithin h =>
    exact ofMembers?_within (SyntheticSettings.ofMembers?_congr fun name _ => member?_congr (h.filter (·.1 == name)))
  | insertedWithin h v =>
    refine ofMembers?_within (SyntheticSettings.ofMembers?_congr fun other hother => (member?_cons_of_ne ?_ v).symm)
    rintro rfl
    exact h hother
  | symm _ ih => exact ih.symm
  | trans _ _ ih ih' => exact ih.trans ih'

/-- A value that no settings are loaded from: a known member stands twice, among all members or among those of the
synthetic camera, or there the name of a member is no text. -/
inductive Spoiled : JsonValue → Prop where
  | repeated {members : List (String × JsonValue)} {name : String} (hname : name ∈ memberNames)
      (h : 2 ≤ (members.map Prod.fst).count name) : Spoiled (.object members)
  | repeatedWithin {members inner : List (String × JsonValue)} {name : String}
      (hinner : ("synthetic", .object inner) ∈ members) (hname : name ∈ SyntheticSettings.memberNames)
      (h : 2 ≤ (inner.map Prod.fst).count name) : Spoiled (.object members)
  | nameless : Spoiled .foreign
  | namelessWithin {members : List (String × JsonValue)} (h : ("synthetic", .foreign) ∈ members) :
      Spoiled (.object members)

theorem Spoiled.load?_eq {v : JsonValue} (h : Spoiled v) : (load? v : Option Settings) = none := by
  cases h with
  | repeated hname h => rw [load?_object, ofMembers?_of_repeated hname h]
  | repeatedWithin hinner hname h =>
    have hnone : (load? (.object _) : Option SyntheticSettings) = none :=
      (SyntheticSettings.load?_object _).trans (SyntheticSettings.ofMembers?_of_repeated hname h)
    rw [load?_object, ofMembers?_of_synthetic (field_of_mem hinner hnone)]
  | nameless => rfl
  | namelessWithin h => rw [load?_object, ofMembers?_of_synthetic (field_of_mem h rfl)]

end Settings

/-! ## Files -/

/-- The file is JSON and stands for the value. -/
def FileTree.HoldsJson (tree : FileTree) (p : Path) (v : JsonValue) : Prop :=
  ∃ text : String, tree.contentOf p = .ok (Bytes.ofText text) ∧ v.Spells text.toList

/-- Whether the settings were read and the program cannot run with them. -/
def SettingsError.isInvalid : SettingsError → Bool
  | windowLength _ | noQueue | noSteps => true
  | file _ | notText | malformed => false

namespace Settings

theorem isInvalid_of_check {s : Settings} {e : SettingsError} (h : s.check = .error e) : e.isInvalid = true := by
  unfold check at h
  split_ifs at h <;> cases h <;> rfl

/-- What was loaded, if the program can run with it. -/
def checked : Option Settings → Except SettingsError Settings
  | none => .error .malformed
  | some s => s.check.map fun _ => s

theorem ofText_eq_checked (text : String) : ofText text = checked (Stored.read? Settings text) := by
  unfold ofText
  cases Stored.read? Settings text with
  | none => rfl
  | some s =>
    rw [checked]
    dsimp only
    cases s.check <;> rfl

theorem loadFrom_eq_checked {tree : FileTree} {p : Path} {v : JsonValue} (h : tree.HoldsJson p v) :
    loadFrom tree p = checked (load? v) := by
  obtain ⟨text, hcontent, hspells⟩ := h
  rw [loadFrom, hcontent]
  dsimp only
  rw [Bytes.text?_ofText]
  dsimp only
  rw [ofText_eq_checked, Stored.read?, JsonValue.read?_of_spells hspells, Option.bind_some]

/-- Of a file that is JSON: if its members name what is to be set, the usual settings with just that replaced are
loaded, or turned down if the program cannot run with them. A file that says the same with its members in another order
or with others that are not known is loaded alike. Nothing is loaded if a known member stands twice or a name is no
text. -/
theorem named_only {tree : FileTree} {p : Path} {v : JsonValue} (hfile : tree.HoldsJson p v) :
    (∀ (members : List (String × JsonValue)) (o : Overrides), v = .object members → o.NamedBy members →
      let s := o.onto standard
      (s.check = .ok () → loadFrom tree p = .ok s) ∧
      ∀ e, s.check = .error e → loadFrom tree p = .error e ∧ e.isInvalid = true) ∧
    (∀ (members members' : List (String × JsonValue)) (tree' : FileTree) (p' : Path), v = .object members →
      Rearranged members members' → tree'.HoldsJson p' (.object members') → loadFrom tree' p' = loadFrom tree p) ∧
    (Spoiled v → loadFrom tree p = .error .malformed) := by
  have hload := loadFrom_eq_checked hfile
  refine ⟨?_, ?_, fun hspoiled => ?_⟩
  · rintro members o rfl hnamed
    rw [hnamed.load?_eq, checked] at hload
    refine ⟨fun hcheck => ?_, fun e hcheck => ⟨?_, isInvalid_of_check hcheck⟩⟩
    · rw [hload, hcheck]
      rfl
    · rw [hload, hcheck]
      rfl
  · rintro members members' tree' p' rfl hsame hfile'
    rw [loadFrom_eq_checked hfile', hload, load?_object, load?_object, hsame.ofMembers?_eq]
  · rw [hload, hspoiled.load?_eq, checked]

/-- A file with two known members, one of them with an object in it, among members that are not known. -/
theorem named_only_two :
    let text := "\x7b\"x\":[1.5,\"\\ud800\"],\"max_queue_size\" :3, \"synthetic\" :\x7b\"k\":0,\"seed\":7\x7d \x7d"
    let tree : FileTree := ⟨[(["settings.json"], .file (Bytes.ofText text))], []⟩
    let o : Overrides := ⟨none, some 3, none, none, none, some ⟨none, none, none, none, some 7, none⟩, none⟩
    let members := [("x", .array [.foreign, .foreign]), ("max_queue_size", .integer 3),
      ("synthetic", .object [("k", .integer 0), ("seed", .integer 7)])]
    tree.HoldsJson ⟨"/settings.json"⟩ (.object members) ∧ o.NamedBy members ∧ (o.onto standard).check = .ok () ∧
      loadFrom tree ⟨"/settings.json"⟩ = .ok { standard with
        queueCapacity := 3, synthetic := { SyntheticSettings.standard with seed := 7 } } := by
  intro text tree o members
  have hread : JsonValue.read? text = some (.object members) := by
    unfold text members
    cbv
  have hfile : tree.HoldsJson ⟨"/settings.json"⟩ (.object members) :=
    ⟨text, by rfl, JsonValue.read?_eq_some_iff.1 hread⟩
  have hinner : SyntheticSettings.Overrides.NamedBy ⟨none, none, none, none, some 7, none⟩
      [("k", .integer 0), ("seed", .integer 7)] := ⟨rfl, rfl, rfl, rfl, rfl, rfl⟩
  have hnamed : o.NamedBy members := ⟨rfl, rfl, rfl, rfl, rfl, ⟨some _, rfl, .some ⟨_, rfl, hinner⟩⟩, rfl⟩
  have hcheck : (o.onto standard).check = .ok () := by rfl
  exact ⟨hfile, hnamed, hcheck, ((named_only hfile).1 members o rfl hnamed).1 hcheck⟩

/-- A file with a known member and with one that is not known, whose name is half of a surrogate pair. It is JSON, and
nothing is loaded from it. -/
theorem half_a_name_spoils :
    let known : JsonValue.Member := ⟨some "max_queue_size", JsonValue.quoted "max_queue_size", .integer 3, ['3']⟩
    let unknown : JsonValue.Member := ⟨none, ['"', '\\', 'u', 'd', '8', '0', '0', '"'], .null, ['n', 'u', 'l', 'l']⟩
    let text := "\x7b\"max_queue_size\":3,\"\\ud800\":null\x7d"
    let tree : FileTree := ⟨[(["settings.json"], .file (Bytes.ofText text))], []⟩
    (∀ m ∈ [known, unknown], m.Named ∧ m.value.Spells m.text) ∧
      text.toList = '\x7b' :: [','].intercalate ([known, unknown].map JsonValue.Member.written) ++ ['\x7d'] ∧
      ({ standard with queueCapacity := 3 } : Settings).check = .ok () ∧
      loadFrom tree ⟨"/settings.json"⟩ = .error .malformed := by
  intro known unknown text tree
  have hstands : ∀ cs, ¬ JsonValue.Stands [.inl 0xd800] cs := by
    intro cs hcs
    have hjoin : none = some cs := JsonValue.joinUnits_of_stands hcs
    cases hjoin
  have hhalf : JsonValue.Quoted none unknown.key := ⟨[.inl 0xd800], _, .number rfl .nil, hstands, rfl⟩
  have hparts : ∀ m ∈ [known, unknown], m.Named ∧ m.value.Spells m.text := by
    simp only [List.forall_mem_cons]
    refine ⟨⟨?_, .integer 3⟩, ⟨?_, .null⟩, List.forall_mem_nil _⟩
    · exact ⟨[], _, [], JsonValue.blank_nil, JsonValue.quoted_quoted _, JsonValue.blank_nil, (List.append_nil _).symm⟩
    · exact ⟨[], _, [], JsonValue.blank_nil, hhalf, JsonValue.blank_nil, rfl⟩
  have htext : text.toList = '\x7b' :: [','].intercalate ([known, unknown].map JsonValue.Member.written) ++ ['\x7d'] := by
    unfold text known unknown
    cbv
  have hspells : JsonValue.Spells .foreign text.toList := by
    rw [htext]
    exact .object (List.cons_ne_nil _ _) (fun m hm => (hparts m hm).1) fun m hm => (hparts m hm).2
  exact ⟨hparts, htext, rfl, loadFrom_eq_checked ⟨text, rfl, hspells⟩⟩

end Settings

end EventCamera
