import EventCamera.Console.Line
import EventCamera.Proofs.Text.Marks
import Mathlib.Data.List.DropRight
/-!
# The language of the console

What lines say. `ReadAs` has the ways in which a line is read, and every line is read in one of them (`readAs_read`);
what can come out of a line is read off these ways (`ReadAs.sound`). The other direction, which lines ask for a given
command, begins with `read_after_prompt` and `read_beside_prompt`: a text is taken for a bias line in the same way on
the line of its `n` and on the next one.

Blanks around a line mean nothing, since no key is blank and no name that is read begins or ends with a blank.
-/

namespace EventCamera

/-! ## Trimming -/

theorem trimRight_eq (cs : List Char) : trimRight cs = cs.rdropWhile isBlank := rfl

theorem trimLeft_append {s : List Char} (hs : ∀ c ∈ s, isBlank c = true) (cs : List Char) :
    trimLeft (s ++ cs) = trimLeft cs :=
  List.dropWhile_append_of_pos hs

theorem trim_append {s : List Char} (hs : ∀ c ∈ s, isBlank c = true) (cs : List Char) :
    trim (s ++ cs) = trim cs := by
  rw [trim, trimLeft_append hs, trim]

theorem trimRight_cons (c : Char) (cs : List Char) :
    trimRight (c :: cs) = if isBlank c = true ∧ trimRight cs = [] then [] else c :: trimRight cs := by
  simp only [trimRight, List.reverse_cons, List.dropWhile_append]
  by_cases h : cs.reverse.dropWhile isBlank = []
  · cases hc : isBlank c <;> simp [h, hc]
  · simp [h]

theorem trimRight_cons_of_not_blank {c : Char} (hc : isBlank c = false) (cs : List Char) :
    trimRight (c :: cs) = c :: trimRight cs := by
  simp [trimRight_cons, hc]

theorem trim_cons_of_not_blank {c : Char} (hc : isBlank c = false) (cs : List Char) :
    trim (c :: cs) = c :: trimRight cs := by
  rw [trim, trimLeft, List.dropWhile_cons_of_neg (by simp [hc]), trimRight_cons_of_not_blank hc]

theorem trim_cons_of_blank {c : Char} (hc : isBlank c = true) (cs : List Char) : trim (c :: cs) = trim cs := by
  simpa using trim_append (s := [c]) (by simp [hc]) cs

theorem trim_trimRight (cs : List Char) : trim (trimRight cs) = trim cs := by
  induction cs with
  | nil => rfl
  | cons c cs ih =>
    cases hc : isBlank c with
    | true =>
      rw [trimRight_cons, trim_cons_of_blank hc, ← ih]
      split
      · next h => rw [h.2]
      · rw [trim_cons_of_blank hc]
    | false =>
      rw [trimRight_cons_of_not_blank hc, trim_cons_of_not_blank hc, trim_cons_of_not_blank hc, trimRight_eq,
        trimRight_eq, List.rdropWhile_idempotent]

theorem trim_eq_nil_iff {cs : List Char} : trim cs = [] ↔ ∀ c ∈ cs, isBlank c = true := by
  induction cs with
  | nil => simp [trim, trimLeft, trimRight]
  | cons c cs ih =>
    cases hc : isBlank c with
    | true => simp [trim_cons_of_blank hc, ih, hc]
    | false => simp [trim_cons_of_not_blank hc, hc]

/-- Trimming changes nothing exactly where neither end is blank. -/
theorem trim_eq_self_iff {cs : List Char} :
    trim cs = cs ↔ (∀ c ∈ cs.head?, isBlank c = false) ∧ (∀ c ∈ cs.getLast?, isBlank c = false) := by
  cases cs with
  | nil => simp [trim, trimLeft, trimRight]
  | cons c cs =>
    cases hc : isBlank c with
    | true =>
      have hlen : (trim (c :: cs)).length ≤ cs.length := by
        rw [trim_cons_of_blank hc, trim, trimRight_eq]
        exact (List.rdropWhile_prefix _ _).length_le.trans (List.dropWhile_suffix _).length_le
      have hne : trim (c :: cs) ≠ c :: cs := fun h => by
        rw [h, List.length_cons] at hlen
        omega
      simp [hne, hc]
    | false =>
      rw [trim_cons_of_not_blank hc, ← trimRight_cons_of_not_blank hc, trimRight_eq, List.rdropWhile_eq_self_iff]
      simp [hc, List.getLast?_eq_some_getLast]

theorem trim_idempotent (cs : List Char) : trim (trim cs) = trim cs := by
  induction cs with
  | nil => rfl
  | cons c cs ih =>
    cases hc : isBlank c with
    | true => rw [trim_cons_of_blank hc, ih]
    | false =>
      rw [trim_cons_of_not_blank hc, trim_cons_of_not_blank hc, trimRight_eq, trimRight_eq, List.rdropWhile_idempotent]

theorem ofKey?_of_blank {c : Char} (hc : isBlank c = true) : Command.ofKey? c = none := by
  unfold Command.ofKey?
  split <;> first | rfl | simp [isBlank] at hc

theorem filterMap_ofKey?_trimRight (cs : List Char) :
    (trimRight cs).filterMap Command.ofKey? = cs.filterMap Command.ofKey? := by
  induction cs with
  | nil => rfl
  | cons c cs ih =>
    rw [trimRight_cons, List.filterMap_cons (l := cs), ← ih]
    split
    · next h => simp [ofKey?_of_blank h.1, h.2]
    · rw [List.filterMap_cons]

theorem filterMap_ofKey?_trim (cs : List Char) :
    (trim cs).filterMap Command.ofKey? = cs.filterMap Command.ofKey? := by
  rw [trim, filterMap_ofKey?_trimRight]
  induction cs with
  | nil => rfl
  | cons c cs ih =>
    rw [trimLeft, List.dropWhile_cons]
    split
    · next h => rw [List.filterMap_cons_none (ofKey?_of_blank h), ← ih, trimLeft]
    · rfl

/-! ## Names and keys -/

/-- A name that can be typed: not empty, without `=`, and neither its first nor its last character is blank. -/
structure Typable (name : String) : Prop where
  not_empty : name ≠ ""
  no_equals : '=' ∉ name.toList
  begins : ∀ c ∈ name.toList.head?, isBlank c = false
  ends : ∀ c ∈ name.toList.getLast?, isBlank c = false

theorem Typable.trim_eq {name : String} (h : Typable name) : trim name.toList = name.toList :=
  trim_eq_self_iff.2 ⟨h.begins, h.ends⟩

theorem Typable.toList_ne_nil {name : String} (h : Typable name) : name.toList ≠ [] := by
  simpa using h.not_empty

theorem typable_ofList {cs : List Char} (hne : cs ≠ []) (heq : '=' ∉ cs) (ht : trim cs = cs) :
    Typable (String.ofList cs) where
  not_empty := by simpa using hne
  no_equals := by simpa using heq
  begins := by simpa using (trim_eq_self_iff.1 ht).1
  ends := by simpa using (trim_eq_self_iff.1 ht).2

/-- The bias that a command names. -/
def Command.biasName? : Command → Option String
  | .selectBias name => some name
  | .setBias name _ => some name
  | _ => none

/-- The commands that name no bias are those that have a key. -/
theorem Command.exists_key_iff {c : Command} : (∃ k, Command.ofKey? k = some c) ↔ c.biasName? = none := by
  constructor
  · rintro ⟨k, h⟩
    unfold Command.ofKey? at h
    split at h <;> first | cases h; rfl | cases h
  · intro h
    cases c with
    | selectBias | setBias => cases h
    | acquisitionOn => exact ⟨'o', rfl⟩
    | acquisitionOff => exact ⟨'f', rfl⟩
    | recordingStart => exact ⟨'s', rfl⟩
    | recordingStop => exact ⟨'e', rfl⟩
    | quit => exact ⟨'q', rfl⟩
    | listBiases => exact ⟨'b', rfl⟩
    | describeBiases => exact ⟨'B', rfl⟩
    | raiseBias => exact ⟨'+', rfl⟩
    | lowerBias => exact ⟨'-', rfl⟩
    | stepUp => exact ⟨']', rfl⟩
    | stepDown => exact ⟨'[', rfl⟩
    | showSelected => exact ⟨'p', rfl⟩
    | capture => exact ⟨'c', rfl⟩
    | help => exact ⟨'h', rfl⟩

theorem ne_of_key {k : Char} {c : Command} (h : Command.ofKey? k = some c) : k ≠ 'n' ∧ k ≠ 'N' := by
  constructor <;> rintro rfl <;> cases h

/-- Commands that have keys have a row of keys. -/
theorem exists_keys {cs : List Command} (h : ∀ c ∈ cs, ∃ k, Command.ofKey? k = some c) :
    ∃ keys : List Char, keys.map Command.ofKey? = cs.map some := by
  induction cs with
  | nil => exact ⟨[], rfl⟩
  | cons c cs ih =>
    obtain ⟨k, hk⟩ := h c List.mem_cons_self
    obtain ⟨keys, hkeys⟩ := ih fun d hd => h d (List.mem_cons_of_mem c hd)
    exact ⟨k :: keys, by rw [List.map_cons, hk, hkeys, List.map_cons]⟩

theorem filterMap_keys {keys : List Char} {cs : List Command} (h : keys.map Command.ofKey? = cs.map some) :
    keys.filterMap Command.ofKey? = cs := by
  calc keys.filterMap Command.ofKey?
    _ = (keys.map Command.ofKey?).filterMap id := by rw [List.filterMap_map]; rfl
    _ = (cs.map some).filterMap id := by rw [h]
    _ = cs := by rw [List.filterMap_map]; exact List.filterMap_some

/-! ## Bias lines -/

theorem mem_of_mem_trim {c : Char} {cs : List Char} (h : c ∈ trim cs) : c ∈ cs :=
  (List.dropWhile_suffix _).subset ((List.rdropWhile_prefix isBlank _).subset h)

theorem not_blank_of_isDigit {c : Char} (h : c.isDigit = true) : isBlank c = false := by
  have hd : 48 ≤ c.toNat ∧ c.toNat ≤ 57 := by
    simp only [Char.isDigit, Bool.and_eq_true, decide_eq_true_eq, ge_iff_le, UInt32.le_iff_toNat_le] at h
    exact h
  simp only [isBlank, Bool.or_eq_false_iff, Bool.and_eq_false_iff, decide_eq_false_iff_not, beq_eq_false_iff_ne]
  omega

theorem BiasValue.not_blank_of_mem_text {v : BiasValue} {c : Char} (h : c ∈ v.text.toList) : isBlank c = false := by
  rw [BiasValue.text, Decimal.toList_ofInt] at h
  split at h
  · rcases List.mem_cons.1 h with rfl | hc
    · rfl
    · exact not_blank_of_isDigit (Decimal.isDigit_of_mem_digits hc)
  · exact not_blank_of_isDigit (Decimal.isDigit_of_mem_digits h)

theorem BiasValue.text_ne_nil (v : BiasValue) : v.text.toList ≠ [] := by
  rw [BiasValue.text, Decimal.toList_ofInt]
  split
  · simp
  · exact Decimal.digits_ne_nil _

theorem readBiasValue?_text (v : BiasValue) : readBiasValue? v.text.toList = some v := by
  have hv : Int32.minValue.toInt ≤ v.toInt ∧ v.toInt ≤ Int32.maxValue.toInt :=
    ⟨Int32.minValue_le_toInt v, Int32.toInt_le v⟩
  rw [readBiasValue?, BiasValue.text, Decimal.readInt?_toList_ofInt, Option.bind_some, if_pos hv, Int32.ofInt_toInt]

theorem readBiasLine_of_not_mem {cs : List Char} (h : '=' ∉ cs) :
    readBiasLine cs = .commands [.selectBias (String.ofList cs)] := by
  rw [readBiasLine, List.dropWhile_eq_nil_iff.2 (bne_of_notMem h)]

theorem readBiasLine_of_value {before value : List Char} (h : '=' ∉ before) (hne : trim before ≠ []) {v : BiasValue}
    (hv : readBiasValue? (trim value) = some v) :
    readBiasLine (before ++ '=' :: value) = .commands [.setBias (String.ofList (trim before)) v] := by
  have he : (trim before).isEmpty = false := by simpa using hne
  simp [readBiasLine, dropWhile_bne_append h, takeWhile_bne_append h, hv, he]

theorem readBiasLine_eq_nothing {before value : List Char} (h : '=' ∉ before)
    (hv : trim before = [] ∨ readBiasValue? (trim value) = none) :
    readBiasLine (before ++ '=' :: value) = .nothing := by
  rcases hv with he | hv
  · cases hv : readBiasValue? (trim value) <;> simp [readBiasLine, dropWhile_bne_append h, takeWhile_bne_append h, hv, he]
  · simp [readBiasLine, dropWhile_bne_append h, hv]

/-- What a bias line asks for, if it asks for anything. -/
theorem readBiasLine_cases {cs : List Char} (hne : cs ≠ []) (ht : trim cs = cs) :
    readBiasLine cs = .nothing ∨
      ∃ c name, c.biasName? = some name ∧ Typable name ∧ readBiasLine cs = .commands [c] := by
  by_cases heq : '=' ∈ cs
  · obtain ⟨before, value, rfl, hb⟩ := List.eq_append_cons_of_mem heq
    by_cases hn : trim before = []
    · exact .inl (readBiasLine_eq_nothing hb (.inl hn))
    · cases hv : readBiasValue? (trim value) with
      | none => exact .inl (readBiasLine_eq_nothing hb (.inr hv))
      | some v =>
        have hname : '=' ∉ trim before := fun h => hb (mem_of_mem_trim h)
        exact .inr ⟨.setBias _ v, _, rfl, typable_ofList hn hname (trim_idempotent _), readBiasLine_of_value hb hn hv⟩
  · exact .inr ⟨.selectBias _, _, rfl, typable_ofList hne heq ht, readBiasLine_of_not_mem heq⟩

theorem Typable.readBiasLine_name {name : String} (h : Typable name) :
    readBiasLine name.toList = .commands [.selectBias name] := by
  rw [readBiasLine_of_not_mem h.no_equals, String.ofList_toList]

theorem Typable.readBiasLine_value {name : String} (h : Typable name) (v : BiasValue) :
    readBiasLine (name.toList ++ '=' :: v.text.toList) = .commands [.setBias name v] := by
  have ht : trim v.text.toList = v.text.toList :=
    trim_eq_self_iff.2 ⟨fun _ hc => BiasValue.not_blank_of_mem_text (List.mem_of_mem_head? hc),
      fun _ hc => BiasValue.not_blank_of_mem_text (List.mem_of_mem_getLast? hc)⟩
  have hne : trim name.toList ≠ [] := h.trim_eq.symm ▸ h.toList_ne_nil
  rw [readBiasLine_of_value h.no_equals hne (ht.symm ▸ readBiasValue?_text v), h.trim_eq, String.ofList_toList]

/-- A value behind a name leaves no blank at either end. -/
theorem Typable.trim_value {name : String} (h : Typable name) (v : BiasValue) :
    trim (name.toList ++ '=' :: v.text.toList) = name.toList ++ '=' :: v.text.toList := by
  refine trim_eq_self_iff.2 ⟨?_, fun c hc => ?_⟩
  · rw [List.head?_append_of_ne_nil _ h.toList_ne_nil]
    exact h.begins
  · rw [List.append_cons, List.getLast?_append_of_ne_nil _ v.text_ne_nil] at hc
    exact BiasValue.not_blank_of_mem_text (List.mem_of_mem_getLast? hc)

namespace LineReader

/-! ## Lines -/

theorem readTrimmed_n {n : Char} (hn : n = 'n' ∨ n = 'N') (rest : List Char) :
    readTrimmed ⟨false⟩ (n :: rest) =
      if (trim rest).isEmpty then (.awaitName, ⟨true⟩)
      else if (rest.head?.map isBlank).getD false then (readBiasLine (trim rest), ⟨false⟩)
      else (readKeys (n :: rest), ⟨false⟩) := by
  rcases hn with rfl | rfl <;> rfl

theorem readTrimmed_other {line : List Char} (h : ∀ n ∈ line.head?, ¬ (n = 'n' ∨ n = 'N')) :
    readTrimmed ⟨false⟩ line = (readKeys line, ⟨false⟩) := by
  unfold readTrimmed
  rw [if_neg Bool.false_ne_true]
  split
  · simp at h
  · simp at h
  · rfl

theorem not_blank_of_n {n : Char} (hn : n = 'n' ∨ n = 'N') : isBlank n = false := by
  rcases hn with rfl | rfl <;> rfl

/-- The line after a lone `n` is a bias line. -/
theorem read_after_prompt {u : String} (hu : trim u.toList ≠ []) :
    read ⟨true⟩ u = (readBiasLine (trim u.toList), ⟨false⟩) := by
  have he : (trim u.toList).isEmpty = false := by simpa using hu
  unfold read readTrimmed
  rw [if_pos rfl, he]
  rfl

/-- So is what follows `n` and blanks on one line. -/
theorem read_beside_prompt {n : Char} (hn : n = 'n' ∨ n = 'N') {s u : List Char} (hne : s ≠ [])
    (hs : ∀ c ∈ s, isBlank c = true) (hu : trim u ≠ []) {line : String} (hline : line.toList = n :: (s ++ u)) :
    read ⟨false⟩ line = (readBiasLine (trim u), ⟨false⟩) := by
  obtain ⟨b, s, rfl⟩ := List.exists_cons_of_ne_nil hne
  have hrest : trimRight (b :: s ++ u) = b :: trimRight (s ++ u) := by
    have h : trimRight (s ++ u) ≠ [] := by
      intro h
      apply hu
      rw [← trim_append (s := s) (fun c hc => hs c (List.mem_cons_of_mem b hc)), ← trim_trimRight, h]
      rfl
    rw [List.cons_append, trimRight_cons, if_neg (fun hb => h hb.2)]
  have ht : trim (trimRight (b :: s ++ u)) = trim u := by rw [trim_trimRight, trim_append hs]
  have he : (trim u).isEmpty = false := by simpa using hu
  rw [read, hline, trim_cons_of_not_blank (not_blank_of_n hn), readTrimmed_n hn, ht, he, hrest]
  simp [hs b List.mem_cons_self]

/-- Whether the line is a lone `n`, which asks for a name. -/
def Asks (r : LineReader) (line : String) : Prop :=
  r.awaitingName = false ∧ (trim line.toList = ['n'] ∨ trim line.toList = ['N'])

/-- A line that begins with `n` is a question if nothing follows. -/
theorem asks_iff {line : String} {n : Char} {rest : List Char} (hline : trim line.toList = n :: rest)
    (hn : n = 'n' ∨ n = 'N') : Asks ⟨false⟩ line ↔ trim rest = [] := by
  have hq : Asks ⟨false⟩ line ↔ rest = [] := by
    rcases hn with rfl | rfl <;> simp [Asks, hline]
  -- the line has lost the blanks at its end, so that a blank rest is none at all
  have hrest : trimRight rest = rest := by
    have h := trim_idempotent line.toList
    rw [hline, trim_cons_of_not_blank (not_blank_of_n hn)] at h
    exact (List.cons_inj_right n).1 h
  rw [hq, trim_eq_nil_iff, ← List.rdropWhile_eq_nil_iff, ← trimRight_eq, hrest]

/-- The ways in which a line is read, and what the reader is afterwards. -/
inductive ReadAs (r : LineReader) (line : String) : LineInput × LineReader → Prop
  | question (h : r.Asks line) : ReadAs r line (.awaitName, ⟨true⟩)
  | biasLine (cs : List Char) (h : ¬ r.Asks line) (hne : cs ≠ []) (ht : trim cs = cs) :
      ReadAs r line (readBiasLine cs, ⟨false⟩)
  | keys (h : ¬ r.Asks line) : ReadAs r line (readKeys line.toList, ⟨false⟩)

theorem readKeys_trim (line : List Char) : readKeys (trim line) = readKeys line := by
  rw [readKeys, filterMap_ofKey?_trim, readKeys]

theorem readAs_awaiting (line : String) : ReadAs ⟨true⟩ line (read ⟨true⟩ line) := by
  have hq : ¬ Asks ⟨true⟩ line := fun h => Bool.noConfusion h.1
  by_cases he : trim line.toList = []
  · have hk : readKeys line.toList = .nothing := by
      rw [← readKeys_trim, he]
      rfl
    have hr : read ⟨true⟩ line = (readKeys line.toList, ⟨false⟩) := by
      rw [read, he, hk]
      rfl
    exact hr ▸ .keys hq
  · exact read_after_prompt he ▸ .biasLine _ hq he (trim_idempotent _)

theorem readAs_n {line : String} {n : Char} {rest : List Char} (hline : trim line.toList = n :: rest)
    (hn : n = 'n' ∨ n = 'N') : ReadAs ⟨false⟩ line (read ⟨false⟩ line) := by
  have hq := asks_iff hline hn
  rw [read, hline, readTrimmed_n hn]
  split
  · next he => exact .question (hq.2 (List.isEmpty_iff.1 he))
  · next he =>
    have hne : trim rest ≠ [] := fun h => he (List.isEmpty_iff.2 h)
    split
    · exact .biasLine _ (mt hq.1 hne) hne (trim_idempotent _)
    · rw [← hline, readKeys_trim]
      exact .keys (mt hq.1 hne)

theorem readAs_read (r : LineReader) (line : String) : ReadAs r line (r.read line) := by
  obtain ⟨_ | _⟩ := r
  · by_cases hn : ∃ n rest, trim line.toList = n :: rest ∧ (n = 'n' ∨ n = 'N')
    · obtain ⟨n, rest, hline, hn⟩ := hn
      exact readAs_n hline hn
    · have hq : ¬ Asks ⟨false⟩ line := by
        rintro ⟨-, h | h⟩
        · exact hn ⟨_, _, h, .inl rfl⟩
        · exact hn ⟨_, _, h, .inr rfl⟩
      have hr : read ⟨false⟩ line = (readKeys line.toList, ⟨false⟩) := by
        rw [read, readTrimmed_other, readKeys_trim]
        rintro n h hn'
        obtain ⟨rest, hrest⟩ := List.head?_eq_some_iff.1 h
        exact hn ⟨n, rest, hrest, hn'⟩
      exact hr ▸ .keys hq
  · exact readAs_awaiting line

/-! ## Sequences of lines -/

/-- A line, what it was read as, and the reader before and after it. -/
structure Reading where
  before : LineReader
  line : String
  input : LineInput
  after : LineReader
  deriving DecidableEq, Repr

/-- Reads the lines one after the other. -/
def readings (r : LineReader) : List String → List Reading
  | [] => []
  | line :: lines =>
    let (input, after) := r.read line
    ⟨r, line, input, after⟩ :: after.readings lines

/-- What can come out of a line. -/
structure Reading.Sound (x : Reading) : Prop where
  /-- A command that names a bias has a name that can be typed, and is the only command of its line. -/
  named : ∀ cs, x.input = .commands cs → ∀ c ∈ cs, ∀ name, c.biasName? = some name → Typable name ∧ cs = [c]
  /-- Other commands come from the keys of the line, at least one of them. -/
  keyed : ∀ cs, x.input = .commands cs → (∀ c ∈ cs, c.biasName? = none) →
    cs ≠ [] ∧ cs = x.line.toList.filterMap Command.ofKey?
  /-- The line asks for a name exactly if it is a lone `n` that is not itself read as a name. -/
  asks : x.input = .awaitName ↔ x.before.Asks x.line
  awaits : x.after.awaitingName = true ↔ x.input = .awaitName

theorem readKeys_eq_nothing {line : List Char} (h : line.filterMap Command.ofKey? = []) :
    readKeys line = .nothing := by
  rw [readKeys, h]

theorem readKeys_eq_commands {line : List Char} (h : line.filterMap Command.ofKey? ≠ []) :
    readKeys line = .commands (line.filterMap Command.ofKey?) := by
  obtain ⟨c, cs, hcs⟩ := List.exists_cons_of_ne_nil h
  rw [readKeys, hcs]

/-- A reading without commands is sound if it awaits a name after a question only. -/
theorem Reading.Sound.of_nothing {x : Reading} (hx : x.input = .nothing) (ha : x.after = ⟨false⟩)
    (hq : ¬ x.before.Asks x.line) : x.Sound where
  named cs hcs := by rw [hx] at hcs; cases hcs
  keyed cs hcs := by rw [hx] at hcs; cases hcs
  asks := by simp [hx, hq]
  awaits := by simp [hx, ha]

theorem ReadAs.sound {r : LineReader} {line : String} {x : LineInput × LineReader} (h : ReadAs r line x) :
    Reading.Sound ⟨r, line, x.1, x.2⟩ := by
  cases h with
  | question h =>
    exact ⟨fun _ hcs => (by cases hcs), fun _ hcs => (by cases hcs), ⟨fun _ => h, fun _ => rfl⟩, by simp⟩
  | biasLine cs h hne ht =>
    rcases readBiasLine_cases hne ht with hn | ⟨c, name, hc, hname, hr⟩
    · exact .of_nothing hn rfl h
    · constructor
      · intro ds hds d hd name' hname'
        obtain rfl : [c] = ds := LineInput.commands.inj (hr.symm.trans hds)
        obtain rfl := List.mem_singleton.1 hd
        obtain rfl : name = name' := Option.some.inj (hc.symm.trans hname')
        exact ⟨hname, rfl⟩
      · intro ds hds hnone
        obtain rfl : [c] = ds := LineInput.commands.inj (hr.symm.trans hds)
        cases hc.symm.trans (hnone c List.mem_cons_self)
      · simp [hr, h]
      · simp [hr]
  | keys h =>
    by_cases hk : line.toList.filterMap Command.ofKey? = []
    · exact .of_nothing (readKeys_eq_nothing hk) rfl h
    · have hr := readKeys_eq_commands hk
      constructor
      · intro ds hds d hd name hname
        obtain rfl := LineInput.commands.inj (hr.symm.trans hds)
        obtain ⟨k, -, hkey⟩ := List.mem_filterMap.1 hd
        cases (Command.exists_key_iff.1 ⟨k, hkey⟩).symm.trans hname
      · intro ds hds _
        obtain rfl := LineInput.commands.inj (hr.symm.trans hds)
        exact ⟨hk, rfl⟩
      · simp [hr, h]
      · simp [hr]

theorem sound_of_mem_readings {r : LineReader} {lines : List String} {x : Reading} (h : x ∈ r.readings lines) :
    x.Sound := by
  induction lines generalizing r with
  | nil => cases h
  | cons line lines ih =>
    rcases List.mem_cons.1 h with rfl | h
    · exact (readAs_read r line).sound
    · exact ih h

/-! ## What to type for a command -/

theorem blank_of_mem_space {c : Char} (h : c ∈ [' ']) : isBlank c = true := by
  rw [List.mem_singleton.1 h]
  rfl

theorem read_name {name : String} (h : Typable name) :
    read ⟨false⟩ ("n " ++ name) = (.commands [.selectBias name], ⟨false⟩) := by
  have hne : trim name.toList ≠ [] := h.trim_eq.symm ▸ h.toList_ne_nil
  rw [read_beside_prompt (s := [' ']) (.inl rfl) (by simp) (fun _ => blank_of_mem_space) hne (by simp), h.trim_eq,
    h.readBiasLine_name]

theorem read_value {name : String} (h : Typable name) (v : BiasValue) :
    read ⟨false⟩ ("n " ++ name ++ "=" ++ v.text) = (.commands [.setBias name v], ⟨false⟩) := by
  have hne : trim (name.toList ++ '=' :: v.text.toList) ≠ [] := by
    rw [h.trim_value]
    simp
  rw [read_beside_prompt (s := [' ']) (.inl rfl) (by simp) (fun _ => blank_of_mem_space) hne (by simp), h.trim_value,
    h.readBiasLine_value]

theorem read_keys {cs : List Command} (hne : cs ≠ []) {keys : List Char}
    (hkeys : keys.map Command.ofKey? = cs.map some) :
    read ⟨false⟩ (String.ofList keys) = (.commands cs, ⟨false⟩) := by
  have hmap := filterMap_keys hkeys
  have hk : ∀ k ∈ keys, ∃ c, Command.ofKey? k = some c := by
    intro k hk
    obtain ⟨c, -, hc⟩ := List.mem_map.1 (hkeys ▸ List.mem_map_of_mem hk)
    exact ⟨c, hc.symm⟩
  have hhead : ∀ n ∈ (trim keys).head?, ¬ (n = 'n' ∨ n = 'N') := by
    intro n hn
    obtain ⟨c, hc⟩ := hk n (mem_of_mem_trim (List.mem_of_mem_head? hn))
    exact not_or.2 (ne_of_key hc)
  rw [read, String.toList_ofList, readTrimmed_other hhead, readKeys_trim,
    readKeys_eq_commands (hmap.symm ▸ hne), hmap]

/-- A bias line may follow its `n` or be prompted for; every command can be asked for, a command with a name by a bias
line and the others by their keys; and nothing else comes out of any sequence of lines. -/
theorem language :
    (∀ n ∈ ["n", "N"], ∀ s u : String, s ≠ "" → (∀ c ∈ s.toList, isBlank c = true) →
      (∃ c ∈ u.toList, isBlank c = false) → (new.read n).2.read u = new.read (n ++ s ++ u)) ∧
    (∀ r : LineReader, r.awaitingName = false →
      (∀ name, Typable name → r.read ("n " ++ name) = (.commands [.selectBias name], new) ∧
        ∀ v : BiasValue, r.read ("n " ++ name ++ "=" ++ v.text) = (.commands [.setBias name v], new)) ∧
      ∀ cs, cs ≠ [] → (∀ c ∈ cs, ∃ k, Command.ofKey? k = some c) →
        (∃ keys : List Char, keys.map Command.ofKey? = cs.map some) ∧
        ∀ keys : List Char, keys.map Command.ofKey? = cs.map some →
          r.read (String.ofList keys) = (.commands cs, new)) ∧
    ∀ lines, ∀ x ∈ new.readings lines, x.Sound := by
  refine ⟨?_, ?_, fun lines x hx => sound_of_mem_readings hx⟩
  · rintro n hn s u hs hblank ⟨c, hc, hvisible⟩
    have hu : trim u.toList ≠ [] := fun h => by
      rw [trim_eq_nil_iff.1 h c hc] at hvisible
      cases hvisible
    have hne : s.toList ≠ [] := by simpa using hs
    simp only [List.mem_cons, List.not_mem_nil, or_false] at hn
    rcases hn with rfl | rfl
    · exact (read_after_prompt hu).trans (read_beside_prompt (.inl rfl) hne hblank hu (by simp)).symm
    · exact (read_after_prompt hu).trans (read_beside_prompt (.inr rfl) hne hblank hu (by simp)).symm
  · rintro ⟨_⟩ rfl
    exact ⟨fun name h => ⟨read_name h, read_value h⟩,
      fun cs hne hc => ⟨exists_keys hc, fun keys hkeys => read_keys hne hkeys⟩⟩

theorem language_bias_fo :
    (new.read "N").2.read "bias_fo = -5" = new.read ("N" ++ "\t " ++ "bias_fo = -5") ∧
    new.read ("n " ++ "bias_fo" ++ "=" ++ BiasValue.text (-5)) = (.commands [.setBias "bias_fo" (-5)], new) ∧
    new.read (String.ofList ['+', '+', ']']) = (.commands [.raiseBias, .raiseBias, .stepUp], new) ∧
    ∀ x ∈ new.readings ["n", "n", "++ ]"], x.Sound := by
  obtain ⟨prompted, expressible, sound⟩ := language
  obtain ⟨names, keys⟩ := expressible new rfl
  have hname : Typable "bias_fo" := ⟨by decide, by decide, by simp [isBlank], by simp [isBlank]⟩
  have hblank : ∀ c ∈ "\t ".toList, isBlank c = true := by simp [isBlank]
  refine ⟨prompted "N" (by decide) "\t " "bias_fo = -5" (by decide) hblank ⟨'b', by decide, by decide⟩, ?_, ?_, sound _⟩
  · exact (names "bias_fo" hname).2 (-5)
  · refine (keys [.raiseBias, .raiseBias, .stepUp] (by decide) ?_).2 ['+', '+', ']'] rfl
    intro c hc
    simp only [List.mem_cons, List.not_mem_nil, or_false] at hc
    rcases hc with rfl | rfl | rfl
    · exact ⟨'+', rfl⟩
    · exact ⟨'+', rfl⟩
    · exact ⟨']', rfl⟩

end LineReader

end EventCamera
