import EventCamera.Proofs.Json.Grammar
/-!
# Only JSON is read

`read?_eq_some_iff`: the reader reads a text as a value exactly if the text is JSON and stands for the value. What is
read stands for its value because every call of the reader takes a piece of text that is built by the grammar
(`sound`).
-/

namespace EventCamera

namespace JsonValue

variable {cs rest : List Char} {fuel : Nat}

theorem exists_blank (cs : List Char) : ∃ blank, Blank blank ∧ cs = blank ++ skipSpace cs :=
  ⟨cs.takeWhile isSpace, fun _ => List.mem_takeWhile_imp, (List.takeWhile_append_dropWhile ..).symm⟩

/-! ## Strings -/

theorem inside_of_readUnits {units : List (Nat ⊕ Char)} (h : readUnits cs = some (units, rest)) :
    ∃ inside, Inside units inside ∧ cs = inside ++ '"' :: rest := by
  fun_induction readUnits cs generalizing units rest with
  | case1 | case4 | case6 | case7 => cases h
  | case2 =>
    cases h
    exact ⟨[], .nil, rfl⟩
  | case3 a b c d more unit hunit ih =>
    obtain ⟨⟨units, rest⟩, hmore, heq⟩ := Option.map_eq_some_iff.1 h
    cases heq
    obtain ⟨inside, hinside, rfl⟩ := ih hmore
    exact ⟨_, .number hunit hinside, rfl⟩
  | case5 e more _ c he ih =>
    obtain ⟨⟨units, rest⟩, hmore, heq⟩ := Option.map_eq_some_iff.1 h
    cases heq
    obtain ⟨inside, hinside, rfl⟩ := ih hmore
    exact ⟨_, .letter he hinside, rfl⟩
  | case8 c more hquote _ _ hplain ih =>
    obtain ⟨⟨units, rest⟩, hmore, heq⟩ := Option.map_eq_some_iff.1 h
    cases heq
    obtain ⟨inside, hinside, rfl⟩ := ih hmore
    obtain ⟨hc, hback⟩ := not_or.1 hplain
    exact ⟨_, .plain hquote hback (Nat.not_lt.1 hc) hinside, rfl⟩

theorem quoted_of_readString {s : Option String} (h : readString cs = some (s, rest)) :
    ∃ text, Quoted s text ∧ '"' :: cs = text ++ rest := by
  obtain ⟨⟨units, rest⟩, hunits, heq⟩ := Option.map_eq_some_iff.1 h
  cases heq
  obtain ⟨inside, hinside, rfl⟩ := inside_of_readUnits hunits
  refine ⟨'"' :: inside ++ ['"'], ⟨units, inside, hinside, ?_, rfl⟩, by simp⟩
  cases hjoin : joinUnits units with
  | some cs =>
    have hstands := stands_of_joinUnits (fun _ => hinside.lt) hjoin
    rwa [Option.map_some, Means, String.toList_ofList]
  | none =>
    intro cs hcs
    rw [joinUnits_of_stands hcs] at hjoin
    cases hjoin

/-! ## Numbers -/

theorem digitChar_toNat {c : Char} (h : c.isDigit = true) :
    (c.toNat - '0'.toNat).digitChar = c ∧ c.toNat - '0'.toNat < 10 := by
  have hdigit : ∀ n : Fin 10, n.val.digitChar.toNat = 48 + n.val := by decide
  simp only [Char.isDigit, Bool.and_eq_true, decide_eq_true_eq, ge_iff_le, UInt32.le_iff_toNat_le] at h
  have hzero : '0'.toNat = 48 := rfl
  have hc : 48 ≤ c.toNat ∧ c.toNat ≤ 57 := h
  have hlt : c.toNat - '0'.toNat < 10 := by omega
  refine ⟨Char.toNat_inj.1 ?_, hlt⟩
  rw [hdigit ⟨_, hlt⟩]
  dsimp only
  omega

/-- Digits without a zero in front are those of the number they stand for. -/
theorem digits_ofDigitChars {digits : List Char} (hne : digits ≠ []) (h : ∀ c ∈ digits, c.isDigit = true)
    (hzero : ∀ c cs, digits ≠ '0' :: c :: cs) : Decimal.digits (Nat.ofDigitChars 10 digits 0) = digits := by
  induction digits using List.reverseRecOn with
  | nil => exact absurd rfl hne
  | append_singleton front last ih =>
    obtain ⟨hlast, hlt⟩ := digitChar_toNat (h last (by simp))
    rw [Nat.ofDigitChars_append, Nat.ofDigitChars_cons, Nat.ofDigitChars_nil]
    cases front with
    | nil =>
      rw [Nat.ofDigitChars_nil, Decimal.digits, Nat.toDigits_of_lt_base (by omega), Nat.mul_zero, Nat.zero_add, hlast]
      rfl
    | cons first middle =>
      have hfront := ih (by simp) (fun c hc => h c (List.mem_append_left _ hc)) fun c cs heq =>
        hzero c (cs ++ [last]) (by rw [heq]; rfl)
      have hpos : Nat.ofDigitChars 10 (first :: middle) 0 ≠ 0 := by
        intro hz
        rw [hz] at hfront
        obtain ⟨rfl, rfl⟩ : '0' = first ∧ [] = middle := List.cons.inj hfront
        exact hzero last [] rfl
      rw [Decimal.digits, Nat.toDigits_of_base_le (by omega) (by omega), Nat.mul_add_div (by omega),
        Nat.div_eq_of_lt hlt, Nat.add_zero, Nat.mul_add_mod, Nat.mod_eq_of_lt hlt, hlast]
      exact congrArg (· ++ [last]) hfront

theorem digits_of_splitDigits {digits : List Char} (h : splitDigits cs = some (digits, rest)) :
    digits ≠ [] ∧ (∀ c ∈ digits, c.isDigit = true) ∧ cs = digits ++ rest := by
  unfold splitDigits at h
  split at h
  · cases h
  · next hdigits =>
    cases h
    exact ⟨hdigits, fun c => List.mem_takeWhile_imp, (List.takeWhile_append_dropWhile ..).symm⟩

theorem digits_of_splitInteger {digits : List Char} (h : splitInteger cs = some (digits, rest)) :
    Decimal.digits (Nat.ofDigitChars 10 digits 0) = digits ∧ cs = digits ++ rest := by
  unfold splitInteger at h
  split at h
  · cases h
  · next hzero =>
    obtain ⟨hne, hdigits, htext⟩ := digits_of_splitDigits h
    refine ⟨digits_ofDigitChars hne hdigits ?_, htext⟩
    rintro c cs rfl
    exact hzero c cs _ h

theorem fraction_of_skipFraction {present : Bool} (h : skipFraction cs = some (present, rest)) :
    ∃ fraction, Fraction fraction ∧ cs = fraction ++ rest ∧ present = !fraction.isEmpty := by
  unfold skipFraction at h
  split at h
  · obtain ⟨⟨digits, rest⟩, hdigits, heq⟩ := Option.map_eq_some_iff.1 h
    cases heq
    obtain ⟨hne, hall, rfl⟩ := digits_of_splitDigits hdigits
    exact ⟨_, .present hne hall, rfl, rfl⟩
  · cases h
    exact ⟨[], .absent, rfl, rfl⟩

theorem exponent_of_skipExponent {present : Bool} (h : skipExponent cs = some (present, rest)) :
    ∃ exponent, Exponent exponent ∧ cs = exponent ++ rest ∧ present = !exponent.isEmpty := by
  unfold skipExponent at h
  split at h
  case h_3 =>
    cases h
    exact ⟨[], .absent, rfl, rfl⟩
  all_goals
    obtain ⟨⟨digits, rest⟩, hdigits, heq⟩ := Option.map_eq_some_iff.1 h
    cases heq
    obtain ⟨hne, hall, htext⟩ := digits_of_splitDigits hdigits
    have hexponent : ∀ mark sign, (mark = 'e' ∨ mark = 'E') → (sign = [] ∨ sign = ['+'] ∨ sign = ['-']) →
        Exponent (mark :: (sign ++ digits)) :=
      fun _ _ hmark hsign => .present hmark hsign hne hall
    split at htext <;> subst htext
    · exact ⟨_, hexponent _ ['+'] (by simp) (by simp), rfl, rfl⟩
    · exact ⟨_, hexponent _ ['-'] (by simp) (by simp), rfl, rfl⟩
    · exact ⟨_, hexponent _ [] (by simp) (by simp), rfl, rfl⟩

/-- What a number is read as, and the parts it has after its sign. -/
theorem readNumber_cases {minus : Bool} {v : JsonValue} (h : readNumber minus cs = some (v, rest)) :
    ∃ n fraction exponent, Fraction fraction ∧ Exponent exponent ∧
      cs = Decimal.digits n ++ (fraction ++ exponent) ++ rest ∧
      v = if fraction ≠ [] ∨ exponent ≠ [] ∨ minus = true ∧ n = 0 then foreign
        else integer (if minus then -(n : Int) else n) := by
  unfold readNumber at h
  split at h
  · cases h
  next digits more hinteger =>
  split at h
  · cases h
  next present more hfraction =>
  split at h
  · cases h
  next present more hexponent =>
  obtain ⟨hdigits, rfl⟩ := digits_of_splitInteger hinteger
  obtain ⟨fraction, hfractional, rfl, rfl⟩ := fraction_of_skipFraction hfraction
  obtain ⟨exponent, hexponential, rfl, rfl⟩ := exponent_of_skipExponent hexponent
  have hkind : (!fraction.isEmpty || !exponent.isEmpty || (minus && Nat.ofDigitChars 10 digits 0 == 0)) = true ↔
      fraction ≠ [] ∨ exponent ≠ [] ∨ minus = true ∧ Nat.ofDigitChars 10 digits 0 = 0 := by
    simp [or_assoc]
  refine ⟨Nat.ofDigitChars 10 digits 0, fraction, exponent, hfractional, hexponential, ?_⟩
  dsimp only at h
  rw [if_congr hkind rfl rfl] at h
  rw [hdigits]
  split at h
  · next hforeign =>
    cases h
    exact ⟨by simp, (if_pos hforeign).symm⟩
  · next hnative =>
    cases h
    exact ⟨by simp, (if_neg hnative).symm⟩

theorem spells_integer {minus : Bool} {n : Nat} (hzero : ¬ (minus = true ∧ n = 0)) :
    Spells (integer (if minus then -(n : Int) else n)) ((if minus then ['-'] else []) ++ Decimal.digits n) := by
  have htext : integerText (if minus then -(n : Int) else n) = (if minus then ['-'] else []) ++ Decimal.digits n := by
    rw [integerText]
    cases minus with
    | true =>
      have hneg : -(n : Int) < 0 := by
        have hn : n ≠ 0 := fun hn => hzero ⟨rfl, hn⟩
        omega
      rw [if_pos rfl, if_pos rfl, if_pos hneg, Int.natAbs_neg, Int.natAbs_natCast]
      rfl
    | false =>
      have hpos : ¬ (n : Int) < 0 := by omega
      rw [if_neg Bool.false_ne_true, if_neg Bool.false_ne_true, if_neg hpos, Int.natAbs_natCast]
      rfl
  rw [← htext]
  exact .integer _

/-- A number after its sign. -/
theorem spells_of_readNumber {minus : Bool} {v : JsonValue} (h : readNumber minus cs = some (v, rest)) :
    ∃ text, Spells v ((if minus then ['-'] else []) ++ text) ∧ cs = text ++ rest := by
  obtain ⟨n, fraction, exponent, hfraction, hexponent, htext, rfl⟩ := readNumber_cases h
  refine ⟨_, ?_, htext⟩
  split
  · next hforeign => exact .number hfraction hexponent hforeign
  · next hnative =>
    obtain ⟨hnone, hnative⟩ := not_or.1 hnative
    obtain ⟨hnone', hzero⟩ := not_or.1 hnative
    obtain rfl := not_ne_iff.1 hnone
    obtain rfl := not_ne_iff.1 hnone'
    rw [List.append_nil, List.append_nil]
    exact spells_integer hzero

/-! ## Values -/

theorem Items.padded {items : List JsonValue} {blank text : List Char} (hblank : Blank blank) (h : Items items text) :
    Items items (blank ++ text) := by
  obtain ⟨parts, hne, h, rfl, rfl⟩ := h
  obtain ⟨⟨item, first⟩, parts, rfl⟩ := List.exists_cons_of_ne_nil hne
  obtain ⟨hitem, h⟩ := List.forall_mem_cons.1 h
  refine ⟨(item, blank ++ first ++ []) :: parts, by simp, ?_, rfl, ?_⟩
  · exact List.forall_mem_cons.2 ⟨.padded hblank hitem blank_nil, h⟩
  · cases parts <;> simp

theorem Members.padded {members : Option (List (String × JsonValue))} {blank text : List Char} (hblank : Blank blank)
    (h : Members members text) : Members members (blank ++ text) := by
  obtain ⟨parts, hne, hnames, h, rfl, rfl⟩ := h
  obtain ⟨m, parts, rfl⟩ := List.exists_cons_of_ne_nil hne
  obtain ⟨⟨before, quote, after, hbefore, hquote, hafter, hkey⟩, hnames⟩ := List.forall_mem_cons.1 hnames
  obtain ⟨hm, h⟩ := List.forall_mem_cons.1 h
  refine ⟨{ m with key := blank ++ m.key } :: parts, by simp, ?_, ?_, ?_, ?_⟩
  · refine List.forall_mem_cons.2 ⟨⟨blank ++ before, quote, after, ?_, hquote, hafter, ?_⟩, hnames⟩
    · exact fun c hc => (List.mem_append.1 hc).elim (hblank c) (hbefore c)
    · rw [hkey, List.append_assoc]
  · exact List.forall_mem_cons.2 ⟨hm, h⟩
  · rw [mapM_member?_cons, mapM_member?_cons]
  · cases parts <;> simp [Member.written]

def SoundValues (fuel : Nat) : Prop :=
  ∀ cs v rest, readValue fuel cs = some (v, rest) → ∃ text, Spells v text ∧ cs = text ++ rest

def SoundItems (fuel : Nat) : Prop :=
  ∀ cs items rest, readItems fuel cs = some (items, rest) → ∃ text, Items items text ∧ cs = text ++ ']' :: rest

def SoundMembers (fuel : Nat) : Prop :=
  ∀ cs members rest, readMembers fuel cs = some (members, rest) →
    ∃ text, Members members text ∧ cs = text ++ '\x7d' :: rest

theorem soundValues_succ (hitems : SoundItems fuel) (hmembers : SoundMembers fuel) : SoundValues (fuel + 1) := by
  intro cs v rest h
  unfold readValue at h
  split at h
  · cases h
    exact ⟨_, .null, rfl⟩
  · cases h
    exact ⟨_, .true, rfl⟩
  · cases h
    exact ⟨_, .false, rfl⟩
  · obtain ⟨⟨s, rest⟩, hread, heq⟩ := Option.map_eq_some_iff.1 h
    cases heq
    obtain ⟨text, hquoted, htext⟩ := quoted_of_readString hread
    exact ⟨text, .string hquoted, htext⟩
  · obtain ⟨text, hspells, rfl⟩ := spells_of_readNumber h
    exact ⟨_, hspells, rfl⟩
  · next more =>
    obtain ⟨blank, hblank, hmore⟩ := exists_blank more
    split at h
    · next hclose =>
      cases h
      rw [hclose] at hmore
      exact ⟨_, .emptyArray hblank, by simp [hmore]⟩
    · obtain ⟨⟨items, rest⟩, hread, heq⟩ := Option.map_eq_some_iff.1 h
      cases heq
      obtain ⟨text, hspells, htext⟩ := hitems _ _ _ hread
      rw [htext] at hmore
      exact ⟨_, (hspells.padded hblank).array, by simp [hmore]⟩
  · next more =>
    obtain ⟨blank, hblank, hmore⟩ := exists_blank more
    split at h
    · next hclose =>
      cases h
      rw [hclose] at hmore
      exact ⟨_, .emptyObject hblank, by simp [hmore]⟩
    · obtain ⟨⟨members, rest⟩, hread, heq⟩ := Option.map_eq_some_iff.1 h
      cases heq
      obtain ⟨text, hspells, htext⟩ := hmembers _ _ _ hread
      rw [htext] at hmore
      exact ⟨_, (hspells.padded hblank).object, by simp [hmore]⟩
  · obtain ⟨text, hspells, htext⟩ := spells_of_readNumber h
    exact ⟨_, hspells, htext⟩

theorem soundItems_succ (hvalues : SoundValues fuel) (hitems : SoundItems fuel) : SoundItems (fuel + 1) := by
  intro cs items rest h
  unfold readItems at h
  split at h
  · cases h
  · next item more hread =>
    obtain ⟨text, hspells, rfl⟩ := hvalues _ _ _ hread
    obtain ⟨after, hafter, hmore⟩ := exists_blank more
    have hitem := Spells.padded blank_nil hspells hafter
    split at h
    · next hclose =>
      cases h
      rw [hclose] at hmore
      exact ⟨_, .single hitem, by simp [hmore]⟩
    · next next hcomma =>
      obtain ⟨⟨items, rest⟩, hread, heq⟩ := Option.map_eq_some_iff.1 h
      cases heq
      obtain ⟨before, hbefore, hnext⟩ := exists_blank next
      obtain ⟨others, hothers, htext⟩ := hitems _ _ _ hread
      rw [htext] at hnext
      rw [hcomma, hnext] at hmore
      exact ⟨_, .cons hitem (hothers.padded hbefore), by simp [hmore]⟩
    · cases h

/-- Members are read one after the other, the last one up to the closing brace. -/
theorem readMembers_cases {members : Option (List (String × JsonValue))}
    (h : readMembers (fuel + 1) cs = some (members, rest)) :
    ∃ name value tail, BeginsMember fuel cs name value tail ∧
      ((skipSpace tail = '\x7d' :: rest ∧ members = consMember name value (some [])) ∨
      ∃ more others, skipSpace tail = ',' :: more ∧ readMembers fuel (skipSpace more) = some (others, rest) ∧
        members = consMember name value others) := by
  unfold readMembers at h
  split at h
  case h_2 => cases h
  split at h
  · cases h
  next name after hname =>
  split at h
  case h_2 => cases h
  next more hcolon =>
  split at h
  · cases h
  next value tail hvalue =>
  refine ⟨name, value, tail, ⟨_, _, _, rfl, hname, hcolon, hvalue⟩, ?_⟩
  split at h
  · next hclose =>
    cases h
    exact .inl ⟨hclose, rfl⟩
  · next more hcomma =>
    obtain ⟨⟨others, left⟩, hothers, heq⟩ := Option.map_eq_some_iff.1 h
    cases heq
    exact .inr ⟨more, others, hcomma, hothers, rfl⟩
  · cases h

/-- A member that a text begins with, with the blanks after its value. -/
theorem BeginsMember.named (hvalues : SoundValues fuel) {name : Option String} {value : JsonValue} {tail : List Char}
    (h : BeginsMember fuel cs name value tail) :
    ∃ m : Member, m.name = name ∧ m.value = value ∧ m.Named ∧ Spells m.value m.text ∧
      cs = m.written ++ skipSpace tail := by
  obtain ⟨inside, more, more', rfl, hname, hcolon, hvalue⟩ := h
  obtain ⟨quote, hquote, hquoted⟩ := quoted_of_readString hname
  obtain ⟨text, hspells, htext⟩ := hvalues _ _ _ hvalue
  obtain ⟨after, hafter, hmore⟩ := exists_blank more
  obtain ⟨before, hbefore, hmore'⟩ := exists_blank more'
  obtain ⟨blank, hblank, htail⟩ := exists_blank tail
  refine ⟨⟨name, [] ++ (quote ++ after), value, before ++ text ++ blank⟩, rfl, rfl,
    ⟨[], quote, after, blank_nil, hquote, hafter, rfl⟩, .padded hbefore hspells hblank, ?_⟩
  calc '"' :: inside
    _ = quote ++ (after ++ ':' :: (before ++ (text ++ tail))) := by rw [hquoted, hmore, hcolon, hmore', htext]
    _ = quote ++ (after ++ ':' :: (before ++ (text ++ (blank ++ skipSpace tail)))) := by rw [← htail]
    _ = _ := by simp [Member.written]

theorem soundMembers_succ (hvalues : SoundValues fuel) (hmembers : SoundMembers fuel) : SoundMembers (fuel + 1) := by
  intro cs members rest h
  obtain ⟨name, value, tail, hbegins, hend⟩ := readMembers_cases h
  obtain ⟨m, rfl, rfl, hname, hvalue, rfl⟩ := hbegins.named hvalues
  rcases hend with ⟨hclose, rfl⟩ | ⟨more, others, hcomma, hothers, rfl⟩
  · exact ⟨_, .single hname hvalue, by rw [hclose]⟩
  · obtain ⟨blank, hblank, hmore⟩ := exists_blank more
    obtain ⟨text, hothers, htext⟩ := hmembers _ _ _ hothers
    rw [htext] at hmore
    exact ⟨_, .cons hname hvalue (hothers.padded hblank), by simp [hcomma, hmore]⟩

theorem sound (fuel : Nat) : SoundValues fuel ∧ SoundItems fuel ∧ SoundMembers fuel := by
  induction fuel with
  | zero => exact ⟨nofun, nofun, nofun⟩
  | succ fuel ih =>
    obtain ⟨hvalues, hitems, hmembers⟩ := ih
    exact ⟨soundValues_succ hitems hmembers, soundItems_succ hvalues hitems, soundMembers_succ hvalues hmembers⟩

/-! ## Whole texts -/

theorem spells_of_readChars {v : JsonValue} (h : readChars cs = some v) : Spells v cs := by
  unfold readChars at h
  split at h
  · next w rest hread =>
    split at h
    · next hend =>
      cases h
      obtain ⟨before, hbefore, hcs⟩ := exists_blank cs
      obtain ⟨after, hafter, hrest⟩ := exists_blank rest
      obtain ⟨text, hspells, htext⟩ := (sound _).1 _ _ _ hread
      rw [List.isEmpty_iff.1 hend, List.append_nil] at hrest
      rw [hcs, htext, hrest, ← List.append_assoc]
      exact .padded hbefore hspells hafter
    · cases h
  · cases h

/-- What is read is JSON, and all JSON is read. -/
theorem read?_eq_some_iff {v : JsonValue} {text : String} : read? text = some v ↔ Spells v text.toList :=
  ⟨spells_of_readChars, read?_of_spells⟩

end JsonValue

end EventCamera
