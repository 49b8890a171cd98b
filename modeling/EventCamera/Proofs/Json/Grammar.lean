import EventCamera.Json.Reader
import Mathlib
/-!
# JSON text

`Spells v text` says that the text is JSON and stands for the value. It is said without the reader: blanks, escapes and
digits are chosen freely wherever the grammar leaves a choice. Numbers and strings that no stored datum is made of are
`foreign`; so is an object with a name that is no text, as half of a surrogate pair stands for no character.

`read?_of_spells`: the reader reads every such text as the value that it stands for. A value may be followed by anything
that does not belong to it, and by blanks, which the reader leaves for the next step; `Reads` says so, and
`Spells.reads` is the induction over the text. The fuel of the reader is enough because every two calls leave a
character behind.
-/

namespace EventCamera

namespace JsonValue

/-! ## The grammar -/

/-- Only blanks. -/
def Blank (text : List Char) : Prop := ∀ c ∈ text, isSpace c = true

/-- What stands between the quotes of a string: characters and numbered units of UTF-16. -/
inductive Inside : List (Nat ⊕ Char) → List Char → Prop where
  | nil : Inside [] []
  /-- A character stands for itself. -/
  | plain {c : Char} {units : List (Nat ⊕ Char)} {text : List Char} (hquote : c ≠ '"') (hback : c ≠ '\\')
      (hc : 32 ≤ c.toNat) (h : Inside units text) : Inside (.inr c :: units) (c :: text)
  /-- A letter stands for a character. -/
  | letter {e c : Char} {units : List (Nat ⊕ Char)} {text : List Char} (he : simpleEscape? e = some c)
      (h : Inside units text) : Inside (.inr c :: units) ('\\' :: e :: text)
  /-- Four digits number a unit. -/
  | number {a b c d : Char} {unit : Nat} {units : List (Nat ⊕ Char)} {text : List Char}
      (hunit : hexUnit? a b c d = some unit) (h : Inside units text) :
      Inside (.inl unit :: units) ('\\' :: 'u' :: a :: b :: c :: d :: text)

/-- The characters that units stand for: a unit for a character of its own, or two for one. -/
inductive Stands : List (Nat ⊕ Char) → List Char → Prop where
  | nil : Stands [] []
  | char {c : Char} {units : List (Nat ⊕ Char)} {cs : List Char} (h : Stands units cs) :
      Stands (.inr c :: units) (c :: cs)
  | unit {c : Char} {units : List (Nat ⊕ Char)} {cs : List Char} (hc : c.toNat < 0x10000) (h : Stands units cs) :
      Stands (.inl c.toNat :: units) (c :: cs)
  | pair {c : Char} {units : List (Nat ⊕ Char)} {cs : List Char} (hc : 0x10000 ≤ c.toNat) (h : Stands units cs) :
      Stands (.inl (0xd800 + (c.toNat - 0x10000) / 0x400) :: .inl (0xdc00 + (c.toNat - 0x10000) % 0x400) :: units)
        (c :: cs)

/-- What a string stands for: a text, or nothing if its units stand for no characters. -/
def Means (units : List (Nat ⊕ Char)) : Option String → Prop
  | some s => Stands units s.toList
  | none => ∀ cs, ¬ Stands units cs

/-- A string in its quotes. -/
def Quoted (s : Option String) (text : List Char) : Prop :=
  ∃ units inside, Inside units inside ∧ Means units s ∧ text = '"' :: inside ++ ['"']

inductive Fraction : List Char → Prop where
  | absent : Fraction []
  | present {digits : List Char} (hne : digits ≠ []) (h : ∀ c ∈ digits, c.isDigit = true) : Fraction ('.' :: digits)

inductive Exponent : List Char → Prop where
  | absent : Exponent []
  | present {mark : Char} {sign digits : List Char} (hmark : mark = 'e' ∨ mark = 'E')
      (hsign : sign = [] ∨ sign = ['+'] ∨ sign = ['-']) (hne : digits ≠ []) (h : ∀ c ∈ digits, c.isDigit = true) :
      Exponent (mark :: (sign ++ digits))

/-- A member of an object: what its name stands for and how it is written, and the same of its value. -/
structure Member where
  name : Option String
  key : List Char
  value : JsonValue
  text : List Char

/-- The name is a string, with blanks around it. -/
def Member.Named (m : Member) : Prop :=
  ∃ before quote after, Blank before ∧ Quoted m.name quote ∧ Blank after ∧ m.key = before ++ (quote ++ after)

def Member.written (m : Member) : List Char := m.key ++ ':' :: m.text

/-- The member, if its name is a text. -/
def Member.member? (m : Member) : Option (String × JsonValue) := m.name.map (·, m.value)

/-- The text is JSON and stands for the value. -/
inductive Spells : JsonValue → List Char → Prop where
  /-- Blanks may stand around a value. -/
  | padded {v : JsonValue} {before text after : List Char} (hbefore : Blank before) (h : Spells v text)
      (hafter : Blank after) : Spells v (before ++ text ++ after)
  | null : Spells null ['n', 'u', 'l', 'l']
  | true : Spells (bool true) ['t', 'r', 'u', 'e']
  | false : Spells (bool false) ['f', 'a', 'l', 's', 'e']
  | integer (i : Int) : Spells (integer i) (integerText i)
  /-- A number that is not written as an integer. -/
  | number {minus : Bool} {n : Nat} {fraction exponent : List Char} (hfraction : Fraction fraction)
      (hexponent : Exponent exponent) (h : fraction ≠ [] ∨ exponent ≠ [] ∨ minus = Bool.true ∧ n = 0) :
      Spells foreign ((if minus then ['-'] else []) ++ (Decimal.digits n ++ (fraction ++ exponent)))
  | string {s : Option String} {text : List Char} (h : Quoted s text) : Spells ((s.map string).getD foreign) text
  | array {items : List (JsonValue × List Char)} (hne : items ≠ []) (h : ∀ item ∈ items, Spells item.1 item.2) :
      Spells (array (items.map Prod.fst)) ('[' :: [','].intercalate (items.map Prod.snd) ++ [']'])
  | emptyArray {blank : List Char} (h : Blank blank) : Spells (array []) ('[' :: blank ++ [']'])
  | object {members : List Member} (hne : members ≠ []) (hnames : ∀ m ∈ members, m.Named)
      (h : ∀ m ∈ members, Spells m.value m.text) :
      Spells (ofMembers (members.mapM Member.member?))
        ('\x7b' :: [','].intercalate (members.map Member.written) ++ ['\x7d'])
  | emptyObject {blank : List Char} (h : Blank blank) : Spells (object []) ('\x7b' :: blank ++ ['\x7d'])

/-- The text is items with commas between them. -/
def Items (items : List JsonValue) (text : List Char) : Prop :=
  ∃ parts : List (JsonValue × List Char), parts ≠ [] ∧ (∀ part ∈ parts, Spells part.1 part.2) ∧
    parts.map Prod.fst = items ∧ [','].intercalate (parts.map Prod.snd) = text

/-- The text is members with commas between them; there is nothing they stand for if a name is no text. -/
def Members (members : Option (List (String × JsonValue))) (text : List Char) : Prop :=
  ∃ parts : List Member, parts ≠ [] ∧ (∀ part ∈ parts, part.Named) ∧ (∀ part ∈ parts, Spells part.value part.text) ∧
    parts.mapM Member.member? = members ∧ [','].intercalate (parts.map Member.written) = text

variable {rest : List Char} {fuel : Nat}

/-! ## Items and members -/

theorem Items.array {items : List JsonValue} {text : List Char} (h : Items items text) :
    Spells (array items) ('[' :: text ++ [']']) := by
  obtain ⟨parts, hne, h, rfl, rfl⟩ := h
  exact .array hne h

theorem Items.single {item : JsonValue} {text : List Char} (h : Spells item text) : Items [item] text := by
  refine ⟨[(item, text)], by simp, fun part hpart => ?_, rfl, List.intercalate_singleton ..⟩
  obtain rfl := List.mem_singleton.1 hpart
  exact h

theorem Items.cons {item : JsonValue} {items : List JsonValue} {text more : List Char} (hitem : Spells item text)
    (h : Items items more) : Items (item :: items) (text ++ ',' :: more) := by
  obtain ⟨parts, hne, h, rfl, rfl⟩ := h
  obtain ⟨part, parts, rfl⟩ := List.exists_cons_of_ne_nil hne
  refine ⟨(item, text) :: part :: parts, by simp, ?_, rfl, by simp⟩
  exact List.forall_mem_cons.2 ⟨hitem, h⟩

theorem mapM_member?_cons (m : Member) (members : List Member) :
    (m :: members).mapM Member.member? = consMember m.name m.value (members.mapM Member.member?) := by
  rw [List.mapM_cons, Member.member?]
  cases m.name <;> cases members.mapM Member.member? <;> rfl

theorem Members.object {members : Option (List (String × JsonValue))} {text : List Char} (h : Members members text) :
    Spells (ofMembers members) ('\x7b' :: text ++ ['\x7d']) := by
  obtain ⟨parts, hne, hnames, h, rfl, rfl⟩ := h
  exact .object hne hnames h

theorem Members.single {m : Member} (hname : m.Named) (h : Spells m.value m.text) :
    Members (consMember m.name m.value (some [])) m.written := by
  refine ⟨[m], by simp, fun part hpart => ?_, fun part hpart => ?_, mapM_member?_cons m [],
    List.intercalate_singleton ..⟩ <;> rwa [List.mem_singleton.1 hpart]

theorem Members.cons {m : Member} {members : Option (List (String × JsonValue))} {more : List Char}
    (hname : m.Named) (hm : Spells m.value m.text) (h : Members members more) :
    Members (consMember m.name m.value members) (m.written ++ ',' :: more) := by
  obtain ⟨parts, hne, hnames, h, rfl, rfl⟩ := h
  obtain ⟨part, parts, rfl⟩ := List.exists_cons_of_ne_nil hne
  refine ⟨m :: part :: parts, by simp, ?_, ?_, mapM_member?_cons .., by simp⟩
  · exact List.forall_mem_cons.2 ⟨hname, hnames⟩
  · exact List.forall_mem_cons.2 ⟨hm, h⟩

/-! ## Blanks -/

theorem blank_nil : Blank [] := fun _ h => by cases h

theorem skipSpace_append {s : List Char} (hs : Blank s) (cs : List Char) : skipSpace (s ++ cs) = skipSpace cs :=
  List.dropWhile_append_of_pos hs

theorem skipSpace_cons {c : Char} (hc : isSpace c = false) (cs : List Char) : skipSpace (c :: cs) = c :: cs :=
  List.dropWhile_cons_of_neg (by simp [hc])

/-! ## Strings -/

theorem readUnits_of_inside {units : List (Nat ⊕ Char)} {inside : List Char} (h : Inside units inside)
    (rest : List Char) : readUnits (inside ++ '"' :: rest) = some (units, rest) := by
  induction h with
  | nil => rfl
  | @plain c units text hquote hback hc _ ih =>
    have hplain : ¬ (c.toNat < 32 ∨ c = '\\') := not_or.2 ⟨Nat.not_lt.2 hc, hback⟩
    rw [List.cons_append, readUnits, if_neg hplain, ih]
    · rfl
    · exact hquote
    · exact fun _ _ _ _ _ h => absurd h hback
    · exact fun _ _ h => absurd h hback
  | @letter e c units text he _ ih =>
    have hu : e ≠ 'u' := by
      rintro rfl
      cases he
    simp [readUnits, he, hu, ih]
  | number hunit _ ih => simp [readUnits, hunit, ih]

theorem hexValue?_lt {c : Char} {n : Nat} (h : hexValue? c = some n) : n < 16 := by
  simp only [hexValue?, Char.le_def, UInt32.le_iff_toNat_le] at h
  split_ifs at h with h₁ h₂ h₃
  all_goals
    obtain rfl := Option.some.inj h
    simp only [Char.toNat, Char.reduceVal, UInt32.reduceToNat] at *
    omega

theorem hexUnit?_lt {a b c d : Char} {unit : Nat} (h : hexUnit? a b c d = some unit) : unit < 0x10000 := by
  unfold hexUnit? at h
  split at h
  · next ha hb hc hd =>
    have ha := hexValue?_lt ha
    have hb := hexValue?_lt hb
    have hc := hexValue?_lt hc
    have hd := hexValue?_lt hd
    cases h
    omega
  · cases h

theorem Inside.lt {units : List (Nat ⊕ Char)} {inside : List Char} (h : Inside units inside) {unit : Nat}
    (hunit : .inl unit ∈ units) : unit < 0x10000 := by
  induction h with
  | nil => cases hunit
  | plain _ _ _ _ ih | letter _ _ ih => exact ih (by simpa using hunit)
  | number hnumber _ ih =>
    rcases List.mem_cons.1 hunit with heq | hunit
    · cases heq
      exact hexUnit?_lt hnumber
    · exact ih hunit

theorem not_surrogate (c : Char) : c.toNat < 0xd800 ∨ 0xe000 ≤ c.toNat ∧ c.toNat < 0x110000 := by
  have h := c.valid
  rw [UInt32.isValidChar, Nat.isValidChar] at h
  simp only [Char.toNat]
  omega

/-- A number outside the range of halves is a character. -/
theorem toNat_ofNat {n : Nat} (h : n < 0xd800 ∨ 0xe000 ≤ n ∧ n < 0x110000) : (Char.ofNat n).toNat = n := by
  have hvalid : n.isValidChar := by
    rw [Nat.isValidChar]
    omega
  rw [Char.toNat_ofNat, if_pos hvalid]

/-- A unit that is half of no pair stands for its character, whatever follows. -/
theorem joinUnits_inl {unit : Nat} (h : ¬ (0xd800 ≤ unit ∧ unit < 0xe000)) (units : List (Nat ⊕ Char)) :
    joinUnits (.inl unit :: units) = (joinUnits units).map (Char.ofNat unit :: ·) := by
  have hhigh : ∀ low : Nat, ¬ (0xd800 ≤ unit ∧ unit < 0xdc00 ∧ 0xdc00 ≤ low ∧ low < 0xe000) := by omega
  rcases units with _ | ⟨low | c, units⟩ <;> simp [joinUnits, h, hhigh]

theorem joinUnits_of_stands {units : List (Nat ⊕ Char)} {cs : List Char} (h : Stands units cs) :
    joinUnits units = some cs := by
  induction h with
  | nil => rfl
  | char _ ih => rw [joinUnits, ih, Option.map_some]
  | @unit c units cs _ _ ih =>
    have hc := not_surrogate c
    rw [joinUnits_inl (by omega), ih, Option.map_some, Char.ofNat_toNat]
  | @pair c units cs hhigh _ ih =>
    have hc := not_surrogate c
    have hsum : 0x10000 + (0xd800 + (c.toNat - 0x10000) / 0x400 - 0xd800) * 0x400 +
        (0xdc00 + (c.toNat - 0x10000) % 0x400 - 0xdc00) = c.toNat := by omega
    rw [joinUnits, if_pos (by omega), ih, Option.map_some, hsum, Char.ofNat_toNat]

theorem Stands.of_unit {unit : Nat} {units : List (Nat ⊕ Char)} {cs : List Char}
    (hhalf : ¬ (0xd800 ≤ unit ∧ unit < 0xe000)) (hlt : unit < 0x10000) (h : Stands units cs) :
    Stands (.inl unit :: units) (Char.ofNat unit :: cs) := by
  have hunit : (Char.ofNat unit).toNat = unit := toNat_ofNat (by omega)
  have hstands := Stands.unit (hunit ▸ hlt) h
  rwa [hunit] at hstands

theorem Stands.of_pair {high low : Nat} {units : List (Nat ⊕ Char)} {cs : List Char}
    (hpair : 0xd800 ≤ high ∧ high < 0xdc00 ∧ 0xdc00 ≤ low ∧ low < 0xe000) (h : Stands units cs) :
    Stands (.inl high :: .inl low :: units)
      (Char.ofNat (0x10000 + (high - 0xd800) * 0x400 + (low - 0xdc00)) :: cs) := by
  have hc : (Char.ofNat (0x10000 + (high - 0xd800) * 0x400 + (low - 0xdc00))).toNat =
      0x10000 + (high - 0xd800) * 0x400 + (low - 0xdc00) := toNat_ofNat (by omega)
  have hstands := Stands.pair (c := Char.ofNat _) (by rw [hc]; omega) h
  rw [hc] at hstands
  have hhigh : 0xd800 + (0x10000 + (high - 0xd800) * 0x400 + (low - 0xdc00) - 0x10000) / 0x400 = high := by omega
  have hlow : 0xdc00 + (0x10000 + (high - 0xd800) * 0x400 + (low - 0xdc00) - 0x10000) % 0x400 = low := by omega
  rwa [hhigh, hlow] at hstands

theorem stands_of_joinUnits {units : List (Nat ⊕ Char)} {cs : List Char}
    (hunits : ∀ unit, .inl unit ∈ units → unit < 0x10000) (h : joinUnits units = some cs) : Stands units cs := by
  fun_induction joinUnits units generalizing cs with
  | case1 =>
    cases h
    exact .nil
  | case4 | case6 => cases h
  | case2 c units ih =>
    obtain ⟨cs, hcs, rfl⟩ := Option.map_eq_some_iff.1 h
    exact .char (ih (fun unit hunit => hunits unit (List.mem_cons_of_mem _ hunit)) hcs)
  | case3 high low units hpair ih =>
    obtain ⟨cs, hcs, rfl⟩ := Option.map_eq_some_iff.1 h
    exact .of_pair hpair (ih (fun unit hunit => hunits unit (by simp [hunit])) hcs)
  | case5 high low units hpair hhalf ih =>
    obtain ⟨cs, hcs, rfl⟩ := Option.map_eq_some_iff.1 h
    have hrest := ih (fun unit hunit => hunits unit (List.mem_cons_of_mem _ hunit)) hcs
    exact .of_unit (by omega) (hunits high List.mem_cons_self) hrest
  | case7 unit units _ hhalf ih =>
    obtain ⟨cs, hcs, rfl⟩ := Option.map_eq_some_iff.1 h
    have hrest := ih (fun unit hunit => hunits unit (List.mem_cons_of_mem _ hunit)) hcs
    exact .of_unit hhalf (hunits unit List.mem_cons_self) hrest

/-- A string is read as what it stands for. -/
theorem Quoted.read {s : Option String} {text : List Char} (h : Quoted s text) :
    ∃ cs, text = '"' :: cs ∧ ∀ rest, readString (cs ++ rest) = some (s, rest) := by
  obtain ⟨units, inside, hinside, hmeans, rfl⟩ := h
  refine ⟨inside ++ ['"'], rfl, fun rest => ?_⟩
  have hjoin : (joinUnits units).map String.ofList = s := by
    cases s with
    | some s => rw [joinUnits_of_stands hmeans, Option.map_some, String.ofList_toList]
    | none =>
      rw [Option.map_eq_none_iff, Option.eq_none_iff_forall_ne_some]
      exact fun cs hcs => hmeans cs (stands_of_joinUnits (fun _ => hinside.lt) hcs)
  rw [readString, List.append_assoc, List.singleton_append, readUnits_of_inside hinside, Option.map_some]
  dsimp only
  rw [hjoin]

/-! ## Numbers -/

/-- What may stand after a number: nothing that could belong to it. -/
def Ends (rest : List Char) : Prop :=
  ∀ c ∈ rest.head?, c.isDigit = false ∧ c ≠ '.' ∧ c ≠ 'e' ∧ c ≠ 'E'

theorem ends_nil : Ends [] := fun _ h => by cases h

theorem ends_cons {c : Char} (hc : c.isDigit = false ∧ c ≠ '.' ∧ c ≠ 'e' ∧ c ≠ 'E') (cs : List Char) :
    Ends (c :: cs) := by
  intro d hd
  obtain rfl := Option.some.inj hd
  exact hc

theorem ends_append {s : List Char} (hs : Blank s) {cs : List Char} (h : Ends cs) : Ends (s ++ cs) := by
  cases s with
  | nil => exact h
  | cons c s =>
    have hc := hs c List.mem_cons_self
    simp only [isSpace, Bool.or_eq_true, beq_iff_eq] at hc
    apply ends_cons
    rcases hc with ((rfl | rfl) | rfl) | rfl <;> decide

/-- Digits are read up to what is none. -/
theorem splitDigits_append {digits more : List Char} (hne : digits ≠ []) (h : ∀ c ∈ digits, c.isDigit = true)
    (hmore : ∀ c ∈ more.head?, c.isDigit = false) : splitDigits (digits ++ more) = some (digits, more) := by
  have hafter : more.takeWhile Char.isDigit = [] ∧ more.dropWhile Char.isDigit = more := by
    cases more with
    | nil => exact ⟨rfl, rfl⟩
    | cons c more => simp [hmore c rfl]
  rw [splitDigits, List.takeWhile_append_of_pos h, List.dropWhile_append_of_pos h, hafter.1, hafter.2, List.append_nil]
  obtain ⟨c, cs, rfl⟩ := List.exists_cons_of_ne_nil hne
  rfl

/-- Only zero begins with a zero. -/
theorem head?_digits {n : Nat} (h : 0 < n) : (Decimal.digits n).head? ≠ some '0' := by
  induction n using Nat.strongRecOn with
  | ind n ih =>
    by_cases hn : n < 10
    · have hdigit : ∀ n : Fin 10, 0 < n → n.val.digitChar ≠ '0' := by decide
      rw [Decimal.digits, Nat.toDigits_of_lt_base hn]
      simpa using hdigit ⟨n, hn⟩ h
    · have hdigits : Decimal.digits n = Decimal.digits (n / 10) ++ [(n % 10).digitChar] :=
        Nat.toDigits_of_base_le (by omega) (by omega)
      rw [hdigits, List.head?_append_of_ne_nil _ (Decimal.digits_ne_nil _)]
      exact ih (n / 10) (by omega) (by omega)

theorem splitInteger_digits (n : Nat) {more : List Char} (hmore : ∀ c ∈ more.head?, c.isDigit = false) :
    splitInteger (Decimal.digits n ++ more) = some (Decimal.digits n, more) := by
  rw [splitInteger, splitDigits_append (Decimal.digits_ne_nil n) (fun c => Decimal.isDigit_of_mem_digits) hmore]
  split
  · next hzero =>
    obtain ⟨hzero, -⟩ := Prod.mk.inj (Option.some.inj hzero)
    cases Nat.eq_zero_or_pos n with
    | inl hn =>
      subst hn
      cases hzero
    | inr hn => exact absurd (by rw [hzero]; rfl) (head?_digits hn)
  · rfl

theorem Exponent.skip {exponent : List Char} (h : Exponent exponent) (hrest : Ends rest) :
    skipExponent (exponent ++ rest) = some (!exponent.isEmpty, rest) := by
  cases h with
  | absent =>
    rw [List.nil_append]
    unfold skipExponent
    split
    · exact absurd rfl (hrest 'e' rfl).2.2.1
    · exact absurd rfl (hrest 'E' rfl).2.2.2
    · rfl
  | @present mark sign digits hmark hsign hne h =>
    have hdigits := splitDigits_append hne h fun c hc => (hrest c hc).1
    have hdigit : ∃ c cs, digits = c :: cs ∧ c ≠ '+' ∧ c ≠ '-' := by
      obtain ⟨c, cs, rfl⟩ := List.exists_cons_of_ne_nil hne
      have hc := h c List.mem_cons_self
      refine ⟨c, cs, rfl, ?_, ?_⟩ <;>
      · rintro rfl
        cases hc
    obtain ⟨c, cs, rfl, hplus, hminus⟩ := hdigit
    rcases hmark with rfl | rfl <;> rcases hsign with rfl | rfl | rfl <;>
      simp_all [skipExponent]

theorem Exponent.head {exponent : List Char} (h : Exponent exponent) (hrest : Ends rest) :
    ∀ c ∈ (exponent ++ rest).head?, c.isDigit = false ∧ c ≠ '.' := by
  cases h with
  | absent => exact fun c hc => ⟨(hrest c hc).1, (hrest c hc).2.1⟩
  | present hmark =>
    rintro c hc
    obtain rfl := Option.some.inj hc
    rcases hmark with rfl | rfl <;> decide

theorem Fraction.skip {fraction more : List Char} (h : Fraction fraction)
    (hmore : ∀ c ∈ more.head?, c.isDigit = false ∧ c ≠ '.') :
    skipFraction (fraction ++ more) = some (!fraction.isEmpty, more) := by
  cases h with
  | absent =>
    rw [List.nil_append]
    unfold skipFraction
    split
    · exact absurd rfl (hmore '.' rfl).2
    · rfl
  | present hne h =>
    have hdigits := splitDigits_append hne h fun c hc => (hmore c hc).1
    rw [List.cons_append, skipFraction, hdigits]
    rfl

theorem Fraction.head {fraction more : List Char} (h : Fraction fraction)
    (hmore : ∀ c ∈ more.head?, c.isDigit = false ∧ c ≠ '.') : ∀ c ∈ (fraction ++ more).head?, c.isDigit = false := by
  cases h with
  | absent => exact fun c hc => (hmore c hc).1
  | present =>
    rintro c hc
    obtain rfl := Option.some.inj hc
    rfl

theorem readNumber_eq (minus : Bool) (n : Nat) {fraction exponent : List Char} (hfraction : Fraction fraction)
    (hexponent : Exponent exponent) (hrest : Ends rest) :
    readNumber minus (Decimal.digits n ++ (fraction ++ (exponent ++ rest))) =
      some (if fraction ≠ [] ∨ exponent ≠ [] ∨ minus = true ∧ n = 0 then foreign
        else integer (if minus then -(n : Int) else n), rest) := by
  have hmore := hexponent.head hrest
  have hvalue : Nat.ofDigitChars 10 (Decimal.digits n) 0 = n := Nat.ofDigitChars_toDigits (by omega) (by omega)
  simp only [readNumber, splitInteger_digits n (hfraction.head hmore), hfraction.skip hmore, hexponent.skip hrest, hvalue]
  have hkind : (!fraction.isEmpty || !exponent.isEmpty || (minus && n == 0)) = true ↔
      fraction ≠ [] ∨ exponent ≠ [] ∨ minus = true ∧ n = 0 := by
    simp [or_assoc]
  rw [if_congr hkind rfl rfl]
  split_ifs <;> rfl

theorem not_isSpace_of_isDigit {c : Char} (h : c.isDigit = true) : isSpace c = false := by
  rw [Bool.eq_false_iff]
  intro hc
  simp only [isSpace, Bool.or_eq_true, beq_iff_eq] at hc
  rcases hc with ((rfl | rfl) | rfl) | rfl <;> cases h

theorem readValue_of_isDigit {c : Char} (hc : c.isDigit = true) (fuel : Nat) (cs : List Char) :
    readValue (fuel + 1) (c :: cs) = readNumber false (c :: cs) := by
  rw [readValue]
  -- none of the characters that the other alternatives begin with is a digit
  all_goals
    intros
    rename_i h
    cases h
    cases hc

/-- A number, with its sign and what comes after its digits. -/
theorem readValue_number (minus : Bool) (n : Nat) (fuel : Nat) (cs : List Char) :
    readValue (fuel + 1) (skipSpace ((if minus then ['-'] else []) ++ (Decimal.digits n ++ cs))) =
      readNumber minus (Decimal.digits n ++ cs) := by
  cases minus with
  | true =>
    rw [if_pos rfl, List.singleton_append, skipSpace_cons rfl, readValue]
  | false =>
    obtain ⟨c, ds, hdigits⟩ := List.exists_cons_of_ne_nil (Decimal.digits_ne_nil n)
    have hdigit : c.isDigit = true := Decimal.isDigit_of_mem_digits (hdigits ▸ List.mem_cons_self)
    rw [if_neg Bool.false_ne_true, List.nil_append, hdigits, List.cons_append,
      skipSpace_cons (not_isSpace_of_isDigit hdigit), readValue_of_isDigit hdigit]

theorem integerText_eq (i : Int) :
    integerText i = (if decide (i < 0) then ['-'] else []) ++ (Decimal.digits i.natAbs ++ []) := by
  rw [integerText, List.append_nil]
  by_cases hi : i < 0
  · rw [if_pos hi, decide_eq_true hi, if_pos rfl, List.singleton_append]
  · rw [if_neg hi, decide_eq_false hi, if_neg Bool.false_ne_true, List.nil_append]

/-! ## Values -/

/-- Wherever the text stands, the value is read, and blanks at most are left of the text. -/
def Reads (text : List Char) (v : JsonValue) : Prop :=
  ∀ fuel rest, 2 * text.length ≤ fuel → Ends rest →
    ∃ after, readValue fuel (skipSpace (text ++ rest)) = some (v, after) ∧ skipSpace after = skipSpace rest

/-- A text that begins with its value and is read to its end. -/
theorem Reads.of_succ {text : List Char} {v : JsonValue} (hne : text ≠ [])
    (h : ∀ fuel rest, 2 * text.length ≤ fuel + 1 → Ends rest →
      readValue (fuel + 1) (skipSpace (text ++ rest)) = some (v, rest)) : Reads text v := by
  intro fuel rest hfuel hrest
  have hlength := List.length_pos_iff.2 hne
  obtain ⟨fuel, rfl⟩ : ∃ n, fuel = n + 1 := ⟨fuel - 1, by omega⟩
  exact ⟨rest, h fuel rest hfuel hrest, rfl⟩

theorem Reads.padded {v : JsonValue} {before text after : List Char} (hbefore : Blank before) (h : Reads text v)
    (hafter : Blank after) : Reads (before ++ text ++ after) v := by
  intro fuel rest hfuel hrest
  simp only [List.length_append] at hfuel
  obtain ⟨left, hread, hleft⟩ := h fuel (after ++ rest) (by omega) (ends_append hafter hrest)
  refine ⟨left, ?_, hleft.trans (skipSpace_append hafter rest)⟩
  rw [List.append_assoc, List.append_assoc, skipSpace_append hbefore, hread]

theorem reads_number {minus : Bool} {n : Nat} {fraction exponent : List Char} {v : JsonValue}
    (hfraction : Fraction fraction) (hexponent : Exponent exponent)
    (hv : v = if fraction ≠ [] ∨ exponent ≠ [] ∨ minus = true ∧ n = 0 then foreign
      else integer (if minus then -(n : Int) else n)) :
    Reads ((if minus then ['-'] else []) ++ (Decimal.digits n ++ (fraction ++ exponent))) v := by
  refine .of_succ (by simp [Decimal.digits_ne_nil]) fun fuel rest _ hrest => ?_
  rw [List.append_assoc, List.append_assoc, List.append_assoc, readValue_number,
    readNumber_eq minus n hfraction hexponent hrest, hv]

theorem reads_integer (i : Int) : Reads (integerText i) (integer i) := by
  rw [integerText_eq]
  refine reads_number .absent .absent ?_
  by_cases hi : i < 0
  · have hne : ¬ (([] : List Char) ≠ [] ∨ ([] : List Char) ≠ [] ∨ decide (i < 0) = true ∧ i.natAbs = 0) := by
      simp only [ne_eq, not_true_eq_false, false_or]
      omega
    have habs : -(i.natAbs : Int) = i := by omega
    rw [if_neg hne, decide_eq_true hi, if_pos rfl, habs]
  · have habs : (i.natAbs : Int) = i := by omega
    simp only [decide_eq_false hi, ne_eq, not_true_eq_false, false_or, Bool.false_eq_true, false_and, if_false, habs]

/-! ## Arrays -/

theorem readItems_last {cs after : List Char} {item : JsonValue} (hitem : readValue fuel cs = some (item, after))
    (hclose : skipSpace after = ']' :: rest) : readItems (fuel + 1) cs = some ([item], rest) := by
  rw [readItems, hitem]
  dsimp only
  rw [hclose]
  rfl

theorem readItems_next {cs after more : List Char} {item : JsonValue} (hitem : readValue fuel cs = some (item, after))
    (hcomma : skipSpace after = ',' :: more) :
    readItems (fuel + 1) cs = (readItems fuel (skipSpace more)).map fun (items, rest) => (item :: items, rest) := by
  rw [readItems, hitem]
  dsimp only
  rw [hcomma]
  rfl

theorem readItems_intercalate {items : List (JsonValue × List Char)} (hne : items ≠ [])
    (h : ∀ item ∈ items, Reads item.2 item.1) (fuel : Nat)
    (hfuel : 2 * ([','].intercalate (items.map Prod.snd)).length + 2 ≤ fuel) (rest : List Char) :
    readItems fuel (skipSpace ([','].intercalate (items.map Prod.snd) ++ ']' :: rest)) =
      some (items.map Prod.fst, rest) := by
  induction items generalizing fuel with
  | nil => exact absurd rfl hne
  | cons item items ih =>
    obtain ⟨fuel, rfl⟩ : ∃ n, fuel = n + 1 := ⟨fuel - 1, by omega⟩
    cases items with
    | nil =>
      have htext : [','].intercalate ([item].map Prod.snd) = item.2 := List.intercalate_singleton ..
      rw [htext] at hfuel ⊢
      obtain ⟨after, hread, hafter⟩ := h item List.mem_cons_self fuel (']' :: rest) (by omega) (ends_cons (by decide) _)
      exact readItems_last hread (hafter.trans (skipSpace_cons rfl _))
    | cons next items =>
      have htext : [','].intercalate ((item :: next :: items).map Prod.snd) =
          item.2 ++ ',' :: [','].intercalate ((next :: items).map Prod.snd) := by
        simp
      rw [htext, List.length_append, List.length_cons] at hfuel
      obtain ⟨after, hread, hafter⟩ := h item List.mem_cons_self fuel
        (',' :: ([','].intercalate ((next :: items).map Prod.snd) ++ ']' :: rest)) (by omega)
        (ends_cons (by decide) _)
      have hrest := ih (by simp) (fun i hi => h i (List.mem_cons_of_mem _ hi)) fuel (by omega)
      rw [htext, List.append_assoc, List.cons_append, readItems_next hread (hafter.trans (skipSpace_cons rfl _)), hrest]
      rfl

theorem readValue_bracket (fuel : Nat) (cs : List Char) : readValue fuel (']' :: cs) = none := by
  cases fuel with
  | zero => rfl
  | succ fuel => rw [readValue]; all_goals first | rfl | simp

theorem readValue_array {cs : List Char} {items : List JsonValue}
    (h : readItems fuel (skipSpace cs) = some (items, rest)) :
    readValue (fuel + 1) ('[' :: cs) = some (array items, rest) := by
  rw [readValue]
  split
  · next hclose =>
    rw [hclose] at h
    cases fuel with
    | zero => cases h
    | succ fuel =>
      rw [readItems, readValue_bracket] at h
      cases h
  · rw [h]
    rfl

/-! ## Objects -/

/-- The text begins with a member, and `tail` comes after its value. -/
def BeginsMember (fuel : Nat) (text : List Char) (name : Option String) (value : JsonValue) (tail : List Char) : Prop :=
  ∃ cs after more, text = '"' :: cs ∧ readString cs = some (name, after) ∧ skipSpace after = ':' :: more ∧
    readValue fuel (skipSpace more) = some (value, tail)

section

variable {text tail more : List Char} {name : Option String} {value : JsonValue}

theorem readMembers_last (h : BeginsMember fuel text name value tail) (hclose : skipSpace tail = '\x7d' :: rest) :
    readMembers (fuel + 1) text = some (consMember name value (some []), rest) := by
  obtain ⟨cs, after, more, rfl, hname, hcolon, hvalue⟩ := h
  simp only [readMembers, hname, hcolon, hvalue, hclose]

theorem readMembers_next (h : BeginsMember fuel text name value tail) (hcomma : skipSpace tail = ',' :: more) :
    readMembers (fuel + 1) text = (readMembers fuel (skipSpace more)).map fun (members, rest) =>
      (consMember name value members, rest) := by
  obtain ⟨cs, after, more', rfl, hname, hcolon, hvalue⟩ := h
  simp only [readMembers, hname, hcolon, hvalue, hcomma]

end

theorem Member.begins {m : Member} (hname : m.Named) (hvalue : Reads m.text m.value) (fuel : Nat)
    (hfuel : 2 * m.written.length ≤ fuel) (hrest : Ends rest) :
    ∃ tail, BeginsMember fuel (skipSpace (m.written ++ rest)) m.name m.value tail ∧ skipSpace tail = skipSpace rest := by
  obtain ⟨before, quote, after, hbefore, hquote, hafter, hkey⟩ := hname
  obtain ⟨cs, rfl, hread⟩ := hquote.read
  simp only [Member.written, List.length_append, List.length_cons] at hfuel
  obtain ⟨tail, htail, hleft⟩ := hvalue fuel rest (by omega) hrest
  refine ⟨tail, ⟨cs ++ (after ++ ':' :: (m.text ++ rest)), _, _, ?_, hread _, ?_, htail⟩, hleft⟩
  · rw [Member.written, hkey]
    simp only [List.append_assoc, List.cons_append]
    rw [skipSpace_append hbefore, skipSpace_cons rfl]
  · rw [skipSpace_append hafter, skipSpace_cons rfl]

theorem readMembers_intercalate {members : List Member} (hne : members ≠ []) (hnames : ∀ m ∈ members, m.Named)
    (h : ∀ m ∈ members, Reads m.text m.value) (fuel : Nat)
    (hfuel : 2 * ([','].intercalate (members.map Member.written)).length + 2 ≤ fuel) (rest : List Char) :
    readMembers fuel (skipSpace ([','].intercalate (members.map Member.written) ++ '\x7d' :: rest)) =
      some (members.mapM Member.member?, rest) := by
  induction members generalizing fuel with
  | nil => exact absurd rfl hne
  | cons m members ih =>
    obtain ⟨fuel, rfl⟩ : ∃ n, fuel = n + 1 := ⟨fuel - 1, by omega⟩
    rw [mapM_member?_cons]
    cases members with
    | nil =>
      have htext : [','].intercalate ([m].map Member.written) = m.written := List.intercalate_singleton ..
      rw [htext] at hfuel ⊢
      obtain ⟨tail, hbegins, htail⟩ := Member.begins (hnames m List.mem_cons_self) (h m List.mem_cons_self)
        fuel (by omega) (ends_cons (c := '\x7d') (by decide) rest)
      exact readMembers_last hbegins (htail.trans (skipSpace_cons rfl _))
    | cons next members =>
      have htext : [','].intercalate ((m :: next :: members).map Member.written) =
          m.written ++ ',' :: [','].intercalate ((next :: members).map Member.written) := by
        simp
      rw [htext, List.length_append, List.length_cons] at hfuel
      obtain ⟨tail, hbegins, htail⟩ := Member.begins (hnames m List.mem_cons_self) (h m List.mem_cons_self)
        fuel (by omega) (ends_cons (c := ',') (by decide)
          ([','].intercalate ((next :: members).map Member.written) ++ '\x7d' :: rest))
      have hrest := ih (by simp) (fun i hi => hnames i (List.mem_cons_of_mem _ hi))
        (fun i hi => h i (List.mem_cons_of_mem _ hi)) fuel (by omega)
      rw [htext, List.append_assoc, List.cons_append, readMembers_next hbegins (htail.trans (skipSpace_cons rfl _)),
        hrest]
      rfl

theorem readValue_object {cs : List Char} {members : Option (List (String × JsonValue))}
    (h : readMembers fuel (skipSpace cs) = some (members, rest)) :
    readValue (fuel + 1) ('\x7b' :: cs) = some (ofMembers members, rest) := by
  rw [readValue]
  split
  · next hclose =>
    rw [hclose] at h
    cases fuel <;> cases h
  · rw [h]
    rfl

/-! ## Whole texts -/

/-- Every text is read as the value that it stands for. -/
theorem Spells.reads {v : JsonValue} {text : List Char} (h : Spells v text) : Reads text v := by
  induction h with
  | padded hbefore _ hafter ih => exact ih.padded hbefore hafter
  | null | true | false => exact .of_succ (by simp) fun fuel rest _ _ => rfl
  | integer i => exact reads_integer i
  | number hfraction hexponent h => exact reads_number hfraction hexponent (if_pos h).symm
  | string h =>
    obtain ⟨cs, rfl, hread⟩ := h.read
    refine .of_succ (by simp) fun fuel rest _ _ => ?_
    rw [List.cons_append, skipSpace_cons rfl, readValue, hread]
    rfl
  | @array items hne _ ih =>
    refine .of_succ (by simp) fun fuel rest hfuel _ => ?_
    simp only [List.length_append, List.length_cons, List.length_nil] at hfuel
    rw [List.append_assoc, List.cons_append, skipSpace_cons rfl, List.singleton_append]
    exact readValue_array (readItems_intercalate hne ih fuel (by omega) rest)
  | @object members hne hnames _ ih =>
    refine .of_succ (by simp) fun fuel rest hfuel _ => ?_
    simp only [List.length_append, List.length_cons, List.length_nil] at hfuel
    rw [List.append_assoc, List.cons_append, skipSpace_cons rfl, List.singleton_append]
    exact readValue_object (readMembers_intercalate hne hnames ih fuel (by omega) rest)
  | emptyArray h | emptyObject h =>
    refine .of_succ (by simp) fun fuel rest _ _ => ?_
    rw [List.append_assoc, List.cons_append, skipSpace_cons rfl, List.singleton_append, readValue, skipSpace_append h,
      skipSpace_cons rfl]
    rfl

theorem readChars_of_spells {v : JsonValue} {text : List Char} (h : Spells v text) : readChars text = some v := by
  obtain ⟨after, hread, hafter⟩ := h.reads (2 * text.length + 2) [] (by omega) ends_nil
  rw [List.append_nil] at hread
  rw [readChars, hread]
  dsimp only
  rw [hafter]
  rfl

theorem read?_of_spells {v : JsonValue} {text : String} (h : Spells v text.toList) : read? text = some v :=
  readChars_of_spells h

end JsonValue

end EventCamera
