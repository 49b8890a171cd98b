import EventCamera.Bias.Change
import EventCamera.Bias.Memory
/-!
# Changing biases in memory

`MemoryBiases.apply_cases` sums up a change: it is turned down before the table is touched, or the table does not take
the value, or the value is written. Whatever was asked of a table before, what it tells about its biases stays as
declared, and every request is handled as `Handled` says (`requests_handled`).
-/

namespace EventCamera

/-! ## Values and ranges as integers -/

theorem BiasValue.toInt_plus (a b : BiasValue) :
    (a.plus b).toInt = max Int32.minValue.toInt (min (a.toInt + b.toInt) Int32.maxValue.toInt) := by
  have hmin : Int32.minValue.toInt = -2147483648 := by decide
  have hmax : Int32.maxValue.toInt = 2147483647 := by decide
  rw [plus, Int32.toInt_ofInt_of_le (by omega) (by omega)]

namespace BiasRange

variable {r : BiasRange}

theorem contains_iff (r : BiasRange) (v : BiasValue) :
    r.contains v = true ↔ r.min.toInt ≤ v.toInt ∧ v.toInt ≤ r.max.toInt := by
  simp [contains, Int32.le_iff_toInt_le]

theorem toInt_clamp (h : r.min ≤ r.max) (v : BiasValue) :
    (r.clamp v).toInt = Max.max r.min.toInt (Min.min v.toInt r.max.toInt) := by
  rw [Int32.le_iff_toInt_le] at h
  unfold clamp
  split
  · next hlow =>
    rw [Int32.lt_iff_toInt_lt] at hlow
    omega
  · next hlow =>
    rw [Int32.lt_iff_toInt_lt] at hlow
    split
    · next hhigh =>
      rw [Int32.lt_iff_toInt_lt] at hhigh
      omega
    · next hhigh =>
      rw [Int32.lt_iff_toInt_lt] at hhigh
      omega

theorem contains_clamp (h : r.min ≤ r.max) (v : BiasValue) : r.contains (r.clamp v) = true := by
  rw [contains_iff, toInt_clamp h]
  rw [Int32.le_iff_toInt_le] at h
  omega

/-- Only a value outside the range is moved. -/
theorem clamp_ne_iff (h : r.min ≤ r.max) (v : BiasValue) : r.clamp v ≠ v ↔ r.contains v = false := by
  rw [← Bool.not_eq_true, contains_iff, ne_eq, ← Int32.toInt_inj, toInt_clamp h]
  rw [Int32.le_iff_toInt_le] at h
  omega

end BiasRange

/-! ## The table -/

theorem lookup_map_snd {α β : Type} (f : String → α → β) (name : String) (entries : List (String × α)) :
    (entries.map fun (n, a) => (n, f n a)).lookup name = (entries.lookup name).map (f name) := by
  induction entries with
  | nil => rfl
  | cons p rest ih =>
    obtain ⟨n, a⟩ := p
    rw [List.map_cons, List.lookup_cons, List.lookup_cons, ih]
    by_cases hn : name = n
    · subst hn
      rw [beq_self_eq_true]
      rfl
    · have hne : (name == n) = false := by simpa using hn
      rw [hne]

namespace MemoryBiases

variable {m m' : MemoryBiases} {name other : String} {value : BiasValue}

/-- What the table tells about its biases, by name. -/
def infos (m : MemoryBiases) : List (String × BiasInfo) := m.entries.map fun (n, b) => (n, b.info)

theorem lookup_infos (m : MemoryBiases) (name : String) : m.infos.lookup name = (m.find? name).map (·.info) :=
  lookup_map_snd (fun _ (b : MemoryBias) => b.info) name m.entries

theorem listed?_eq (m : MemoryBiases) (name : String) :
    BiasFacility.listed? m name = (m.find? name).map (·.value) :=
  lookup_map_snd (fun _ (b : MemoryBias) => b.value) name m.entries

theorem entries_replaceValue (m : MemoryBiases) (name : String) (value : BiasValue) :
    (m.replaceValue name value).entries =
      m.entries.map fun (n, b) => (n, if n = name then { b with value } else b) := by
  refine List.map_congr_left fun p _ => ?_
  by_cases hp : p.1 = name <;> simp [hp]

/-- The bias of that name has the value, and the others are as they were. -/
theorem find?_replaceValue (m : MemoryBiases) (name other : String) (value : BiasValue) :
    (m.replaceValue name value).find? other =
      (m.find? other).map fun b => if other = name then { b with value } else b := by
  rw [find?, entries_replaceValue]
  exact lookup_map_snd (fun n b => if n = name then { b with value } else b) other m.entries

theorem infos_replaceValue (m : MemoryBiases) (name : String) (value : BiasValue) :
    (m.replaceValue name value).infos = m.infos := by
  rw [infos, entries_replaceValue, List.map_map]
  refine List.map_congr_left fun p _ => ?_
  by_cases hp : p.1 = name <;> simp [hp]

/-- A write to the table, in two cases. -/
theorem set_cases (m : MemoryBiases) (name : String) (value : BiasValue) :
    -- It takes the value.
    (∃ b, m.find? name = some b ∧ m.failWrites = false ∧ b.info.allowed.contains value = true ∧
      m.set name value = (.ok (), { m with setCalls := m.setCalls + 1 }.replaceValue name value)) ∨
    -- It does not.
    (∃ e, (∀ b, m.find? name = some b → m.failWrites = true ∨ b.info.allowed.contains value = false) ∧
      m.set name value = (.error e, { m with setCalls := m.setCalls + 1 })) := by
  unfold set
  dsimp only
  split
  · next hfail => exact .inr ⟨_, fun _ _ => .inl hfail, rfl⟩
  · next hfail =>
    split
    · next hnone =>
      change m.find? name = none at hnone
      exact .inr ⟨_, by simp [hnone], rfl⟩
    · next b hsome =>
      change m.find? name = some b at hsome
      split
      · next hallowed => exact .inl ⟨b, hsome, by simpa using hfail, hallowed, rfl⟩
      · next hallowed => exact .inr ⟨_, by simp [hsome, hallowed], rfl⟩

end MemoryBiases

/-! ## Changes -/

open BiasFacility in
/-- A change of a bias to a value, in four cases. -/
theorem MemoryBiases.apply_cases (m : MemoryBiases) (name : String) (value : BiasValue) :
    -- There is no such bias.
    (m.find? name = none ∧ apply name value m = (.error (.unknown name), m)) ∨
    -- It cannot be modified.
    (∃ b, m.find? name = some b ∧ b.info.modifiable = false ∧ apply name value m = (.error (.readOnly name), m)) ∨
    -- The table does not take the value.
    (∃ b e, m.find? name = some b ∧ b.info.modifiable = true ∧
      (m.failWrites = true ∨ b.info.allowed.contains (b.info.recommended.clamp value) = false) ∧
      apply name value m = (.error e, { m with setCalls := m.setCalls + 1 })) ∨
    -- The value is written.
    (∃ b, m.find? name = some b ∧ b.info.modifiable = true ∧ m.failWrites = false ∧
      b.info.allowed.contains (b.info.recommended.clamp value) = true ∧
      apply name value m =
        (.ok ⟨name, some b.value, value, b.info.recommended.clamp value, b.info.recommended.clamp value != value⟩,
          { m with setCalls := m.setCalls + 1 }.replaceValue name (b.info.recommended.clamp value))) := by
  have hinfo : info? m name = (m.find? name).map (·.info) := rfl
  have hget : get? m name = (m.find? name).map (·.value) := rfl
  have hset : ∀ v, BiasFacility.set m name v = m.set name v := fun _ => rfl
  cases hb : m.find? name with
  | none => exact .inl ⟨rfl, by simp [apply, hinfo, hb]⟩
  | some b =>
    cases hmod : b.info.modifiable with
    | false => exact .inr (.inl ⟨b, rfl, hmod, by simp [apply, hinfo, hb, hmod]⟩)
    | true =>
      rcases m.set_cases name (b.info.recommended.clamp value) with ⟨b', hb', hfail, hallowed, hs⟩ | ⟨e, hwhy, hs⟩
      · obtain rfl : b = b' := Option.some.inj (hb ▸ hb')
        have hafter : get? ({ m with setCalls := m.setCalls + 1 }.replaceValue name
            (b.info.recommended.clamp value)) name = some (b.info.recommended.clamp value) := by
          have hb' : ({ m with setCalls := m.setCalls + 1 } : MemoryBiases).find? name = some b := hb
          show Option.map _ (MemoryBiases.find? _ name) = _
          rw [find?_replaceValue, hb', Option.map_some, Option.map_some, if_pos rfl]
        refine .inr (.inr (.inr ⟨b, rfl, hmod, hfail, hallowed, ?_⟩))
        simp [apply, hinfo, hget, hset, hb, hmod, hs, hafter]
      · refine .inr (.inr (.inl ⟨b, e, rfl, hmod, hwhy b hb, ?_⟩))
        simp [apply, hinfo, hset, hb, hmod, hs]

/-! ## Requests -/

/-- What is asked of a bias: to take a value, or to move from the value it has. -/
inductive BiasRequest where
  | apply (value : BiasValue)
  | adjust (delta : BiasValue)
  deriving DecidableEq, Repr

namespace BiasRequest

/-- Makes the request of the bias with the given name. -/
def perform (name : String) (r : BiasRequest) (m : MemoryBiases) : Except BiasError BiasChange × MemoryBiases :=
  match r with
  | apply value => BiasFacility.apply name value m
  | adjust delta => BiasFacility.adjust name delta m

/-- The value that a bias is asked to take when it has the value `v`. An adjustment stops at the ends of the value
type. -/
def asked (v : BiasValue) : BiasRequest → Int
  | apply value => value.toInt
  | adjust delta => max Int32.minValue.toInt (min (v.toInt + delta.toInt) Int32.maxValue.toInt)

/-- Each request asks the bias to take a value, if there is the bias. -/
theorem perform_eq (name : String) (r : BiasRequest) {m : MemoryBiases} {b : MemoryBias} (hb : m.find? name = some b) :
    ∃ value : BiasValue, value.toInt = r.asked b.value ∧ r.perform name m = BiasFacility.apply name value m := by
  cases r with
  | apply value => exact ⟨value, rfl, rfl⟩
  | adjust delta =>
    refine ⟨b.value.plus delta, BiasValue.toInt_plus .., ?_⟩
    rw [perform, BiasFacility.adjust, MemoryBiases.listed?_eq, hb]
    rfl

theorem perform_of_none (name : String) (r : BiasRequest) {m : MemoryBiases} (hb : m.find? name = none) :
    r.perform name m = (.error (.unknown name), m) := by
  cases r with
  | apply value =>
    rcases m.apply_cases name value with ⟨-, h⟩ | ⟨b, hb', -⟩ | ⟨b, e, hb', -⟩ | ⟨b, hb', -⟩
    · exact h
    all_goals
      rw [hb] at hb'
      cases hb'
  | adjust delta =>
    rw [perform, BiasFacility.adjust, MemoryBiases.listed?_eq, hb]
    rfl

end BiasRequest

/-- The change is what a bias does that was asked for a value: it takes the nearest one that is recommended. -/
structure BiasChange.Answers (c : BiasChange) (b : MemoryBias) (asked : Int) : Prop where
  previous : c.previous = some b.value
  requested : c.requested.toInt = asked
  applied : c.applied.toInt = max b.info.recommended.min.toInt (min asked b.info.recommended.max.toInt)
  recommended : b.info.recommended.contains c.applied = true
  allowed : b.info.allowed.contains c.applied = true
  clamped : c.clamped = true ↔ b.info.recommended.contains c.requested = false

namespace MemoryBiases

variable {m m' : MemoryBiases} {name other : String} {r : BiasRequest}

/-- Whether a write to the bias reaches the table: there is such a bias, and it can be modified. -/
def tunable (m : MemoryBiases) (name : String) : Bool := ((m.infos.lookup name).map (·.modifiable)).getD false

/-- How a table handles a request to change a bias, given the answer and the table after it. -/
structure Handled (m : MemoryBiases) (name : String) (r : BiasRequest)
    (answer : Except BiasError BiasChange × MemoryBiases) : Prop where
  infos : answer.2.infos = m.infos
  calls : answer.2.setCalls = m.setCalls + if m.tunable name then 1 else 0
  /-- No bias changes but the one of that name. -/
  others : ∀ other, other ≠ name → answer.2.find? other = m.find? other
  error : ∀ e, answer.1 = .error e → answer.2.entries = m.entries
  ok : ∀ c, answer.1 = .ok c → ∃ b, m.find? name = some b ∧ b.info.modifiable = true ∧ c.name = name ∧
    c.Answers b (r.asked b.value) ∧ answer.2.find? name = some { b with value := c.applied }
  /-- Where all that is recommended is allowed, the request succeeds unless writes are made to fail. -/
  succeeds : ∀ b, m.find? name = some b → b.info.modifiable = true → m.failWrites = false →
    b.info.allowed.min ≤ b.info.recommended.min → b.info.recommended.max ≤ b.info.allowed.max →
    ∃ c, answer.1 = .ok c

/-- The recommended ranges are not empty. -/
def Ordered (m : MemoryBiases) : Prop := ∀ p ∈ m.infos, p.2.recommended.min ≤ p.2.recommended.max

theorem tunable_eq {b : MemoryBias} (hb : m.find? name = some b) : m.tunable name = b.info.modifiable := by
  rw [tunable, lookup_infos, hb]
  rfl

theorem tunable_of_none (hb : m.find? name = none) : m.tunable name = false := by
  rw [tunable, lookup_infos, hb]
  rfl

theorem mem_infos {b : MemoryBias} (hb : m.find? name = some b) : (name, b.info) ∈ m.infos := by
  obtain ⟨before, after, hentries, -⟩ := List.lookup_eq_some_iff.1 hb
  refine List.mem_map.2 ⟨(name, b), ?_, rfl⟩
  simp [hentries]

theorem Ordered.recommended (h : m.Ordered) {b : MemoryBias} (hb : m.find? name = some b) :
    b.info.recommended.min ≤ b.info.recommended.max :=
  h (name, b.info) (mem_infos hb)

/-- What is recommended is taken where it is allowed. -/
theorem allowed_clamp {info : BiasInfo} (h : info.recommended.min ≤ info.recommended.max)
    (hmin : info.allowed.min ≤ info.recommended.min) (hmax : info.recommended.max ≤ info.allowed.max)
    (value : BiasValue) : info.allowed.contains (info.recommended.clamp value) = true := by
  have hrecommended := (BiasRange.contains_iff _ _).1 (BiasRange.contains_clamp h value)
  rw [Int32.le_iff_toInt_le] at hmin hmax
  rw [BiasRange.contains_iff]
  omega

/-- A refusal leaves the biases as they are. Where the bias can be modified and writes work, it needs a value that is
recommended and not allowed. -/
theorem Ordered.handled_error (h : m.Ordered) {e : BiasError} (hentries : m'.entries = m.entries)
    (hcalls : m'.setCalls = m.setCalls + if m.tunable name then 1 else 0)
    (hwhy : ∀ b, m.find? name = some b → b.info.modifiable = true → m.failWrites = false →
      ∃ value, b.info.allowed.contains (b.info.recommended.clamp value) = false) :
    m.Handled name r (.error e, m') where
  infos := by rw [infos, hentries, ← infos]
  calls := hcalls
  others other _ := by rw [find?, hentries, ← find?]
  error _ _ := hentries
  ok := nofun
  succeeds b hb hmod hfail hmin hmax := by
    obtain ⟨value, hvalue⟩ := hwhy b hb hmod hfail
    rw [allowed_clamp (h.recommended hb) hmin hmax] at hvalue
    cases hvalue

/-- Every request is handled. -/
theorem Ordered.handled (h : m.Ordered) (name : String) (r : BiasRequest) :
    m.Handled name r (r.perform name m) := by
  cases hb : m.find? name with
  | none =>
    rw [r.perform_of_none name hb]
    refine h.handled_error rfl (by simp [tunable_of_none hb]) fun b hb' => ?_
    rw [hb] at hb'
    cases hb'
  | some b =>
    obtain ⟨value, hvalue, hperform⟩ := r.perform_eq name hb
    have hsame : ∀ b', m.find? name = some b' → b' = b := fun b' hb' => Option.some.inj (hb' ▸ hb)
    rw [hperform]
    rcases m.apply_cases name value with ⟨hnone, -⟩ | ⟨b', hb', hmod, happly⟩ | ⟨b', e, hb', hmod, hwhy, happly⟩ |
      ⟨b', hb', hmod, -, hallowed, happly⟩
    · rw [hb] at hnone
      cases hnone
    · obtain rfl := hsame b' hb'
      rw [happly]
      refine h.handled_error rfl (by simp [tunable_eq hb, hmod]) fun b'' hb'' hmod' => ?_
      obtain rfl := hsame b'' hb''
      rw [hmod] at hmod'
      cases hmod'
    · obtain rfl := hsame b' hb'
      rw [happly]
      refine h.handled_error rfl (by simp [tunable_eq hb, hmod]) fun b'' hb'' _ hworks => ?_
      obtain rfl := hsame b'' hb''
      exact ⟨value, hwhy.resolve_left (by simp [hworks])⟩
    · obtain rfl := hsame b' hb'
      have hrange := h.recommended hb
      have hfind : ∀ other, ({ m with setCalls := m.setCalls + 1 } : MemoryBiases).find? other = m.find? other :=
        fun _ => rfl
      rw [happly]
      refine ⟨infos_replaceValue .., by simp [tunable_eq hb, hmod, replaceValue], ?_, nofun, ?_,
        fun _ _ _ _ _ _ => ⟨_, rfl⟩⟩
      · intro other hne
        rw [find?_replaceValue, hfind]
        simp [hne]
      · rintro c ⟨⟩
        refine ⟨b', hb', hmod, rfl, ⟨rfl, hvalue, ?_, ?_, hallowed, ?_⟩, ?_⟩
        · rw [← hvalue]
          exact BiasRange.toInt_clamp hrange value
        · exact BiasRange.contains_clamp hrange value
        · simpa using BiasRange.clamp_ne_iff hrange value
        · rw [find?_replaceValue, hfind, hb]
          simp

end MemoryBiases

/-! ## Histories -/

/-- What can be done to a table of biases. -/
inductive BiasOperation where
  | request (name : String) (r : BiasRequest)
  | failWrites (fail : Bool)
  deriving DecidableEq, Repr

/-- Whether the operation writes to a table that tells the same as this one. -/
def BiasOperation.reaches (m : MemoryBiases) : BiasOperation → Bool
  | request name _ => m.tunable name
  | failWrites _ => false

/-- A bias as it is declared. The bounds of a range may come in either order. -/
structure BiasDeclaration where
  name : String
  value : BiasValue
  recommended : BiasValue × BiasValue
  allowed : BiasValue × BiasValue
  modifiable : Bool
  description : String
  category : String
  deriving DecidableEq, Repr

def BiasDeclaration.info (d : BiasDeclaration) : BiasInfo :=
  ⟨.between d.recommended.1 d.recommended.2, .between d.allowed.1 d.allowed.2, d.modifiable, d.description, d.category⟩

namespace MemoryBiases

variable {start m : MemoryBiases} {calls : Nat}

/-- A table of the declared biases. -/
def ofDeclarations (ds : List BiasDeclaration) : MemoryBiases :=
  ds.foldl (fun m d => m.insert d.name d.value d.info) empty

def act (m : MemoryBiases) : BiasOperation → MemoryBiases
  | .request name r => (r.perform name m).2
  | .failWrites fail => { m with failWrites := fail }

def run (m : MemoryBiases) (history : List BiasOperation) : MemoryBiases := history.foldl act m

theorem mem_insertEntry {name : String} {b : MemoryBias} {entries : List (String × MemoryBias)}
    {p : String × MemoryBias} (h : p ∈ insertEntry name b entries) : p = (name, b) ∨ p ∈ entries := by
  induction entries with
  | nil => exact .inl (List.mem_singleton.1 h)
  | cons q rest ih =>
    obtain ⟨other, c⟩ := q
    unfold insertEntry at h
    split at h
    · exact List.mem_cons.1 h
    · split at h
      · exact (List.mem_cons.1 h).imp_right (List.mem_cons_of_mem _)
      · rcases List.mem_cons.1 h with rfl | h
        · exact .inr List.mem_cons_self
        · exact (ih h).imp_right (List.mem_cons_of_mem _)

theorem Ordered.insert (h : m.Ordered) {name : String} {value : BiasValue} {info : BiasInfo}
    (hinfo : info.recommended.min ≤ info.recommended.max) : (m.insert name value info).Ordered := by
  intro p hp
  obtain ⟨q, hq, rfl⟩ := List.mem_map.1 hp
  rcases mem_insertEntry hq with rfl | hq
  · exact hinfo
  · exact h _ (List.mem_map.2 ⟨q, hq, rfl⟩)

theorem ordered_ofDeclarations (ds : List BiasDeclaration) : (ofDeclarations ds).Ordered :=
  List.foldlRecOn ds _ nofun fun _ h _ _ => h.insert (BiasRange.min_le_max_between ..)

theorem setCalls_ofDeclarations (ds : List BiasDeclaration) : (ofDeclarations ds).setCalls = 0 :=
  List.foldlRecOn (motive := fun m : MemoryBiases => m.setCalls = 0) ds _ rfl fun _ h _ _ => h

/-- What a history with that many writes leaves of the table at its beginning. -/
structure Keeps (start m : MemoryBiases) (calls : Nat) : Prop where
  infos : m.infos = start.infos
  calls : m.setCalls = start.setCalls + calls
  fixed : ∀ name b, start.find? name = some b → b.info.modifiable = false → m.find? name = some b

theorem Keeps.ordered (hk : start.Keeps m calls) (h : start.Ordered) : m.Ordered := by
  rw [Ordered, hk.infos]
  exact h

/-- A request keeps what is told about the biases, and writes if it reaches one. -/
theorem Keeps.act (hk : start.Keeps m calls) (h : start.Ordered) (op : BiasOperation) :
    start.Keeps (m.act op) (calls + if op.reaches start then 1 else 0) := by
  cases op with
  | failWrites fail => exact ⟨hk.infos, hk.calls, hk.fixed⟩
  | request name r =>
    have hhandled := (hk.ordered h).handled name r
    have htunable : m.tunable name = start.tunable name := by rw [tunable, tunable, hk.infos]
    refine ⟨hhandled.infos.trans hk.infos, ?_, ?_⟩
    · rw [MemoryBiases.act, hhandled.calls, hk.calls, htunable, Nat.add_assoc]
      rfl
    · intro other b hb hmod
      have hbefore := hk.fixed other b hb hmod
      rw [MemoryBiases.act]
      by_cases hne : other = name
      · -- A success would be that of a bias that can be modified.
        subst hne
        cases ha : (r.perform other m).1 with
        | error e => rw [find?, hhandled.error e ha, ← find?, hbefore]
        | ok c =>
          obtain ⟨b', hb', hmod', -⟩ := hhandled.ok c ha
          obtain rfl : b' = b := Option.some.inj (hb' ▸ hbefore)
          rw [hmod] at hmod'
          cases hmod'
      · rw [hhandled.others other hne, hbefore]

theorem Keeps.run (hk : start.Keeps m calls) (h : start.Ordered) (history : List BiasOperation) :
    start.Keeps (m.run history) (calls + history.countP (·.reaches start)) := by
  induction history generalizing m calls with
  | nil => exact hk
  | cons op rest ih =>
    have hcount : calls + (op :: rest).countP (·.reaches start) =
        calls + (if op.reaches start then 1 else 0) + rest.countP (·.reaches start) := by
      rw [List.countP_cons, Nat.add_assoc, Nat.add_comm (rest.countP _)]
    rw [hcount]
    exact ih (hk.act h op)

/-- Whatever was done to a table before, what it tells is as declared, a bias that cannot be modified has its declared
value, one write reached the table for each request to a bias that can be, and every request is handled. -/
theorem requests_handled (ds : List BiasDeclaration) (history : List BiasOperation) :
    let start := ofDeclarations ds
    let m := start.run history
    m.infos = start.infos ∧
    (∀ name b, start.find? name = some b → b.info.modifiable = false → m.find? name = some b) ∧
    m.setCalls = history.countP (·.reaches start) ∧
    ∀ name r, m.Handled name r (r.perform name m) := by
  intro start m
  have hstart : start.Ordered := ordered_ofDeclarations ds
  have hk : start.Keeps m (0 + history.countP (·.reaches start)) :=
    Keeps.run ⟨rfl, rfl, fun _ _ hb _ => hb⟩ hstart history
  have hcalls : start.setCalls = 0 := setCalls_ofDeclarations ds
  refine ⟨hk.infos, hk.fixed, ?_, fun name r => (hk.ordered hstart).handled name r⟩
  rw [hk.calls, hcalls]
  omega

end MemoryBiases

end EventCamera
