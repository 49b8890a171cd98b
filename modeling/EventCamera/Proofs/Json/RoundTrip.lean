import EventCamera.Proofs.Json.Grammar
/-!
# What is written is read back

A value that holds nothing foreign is read back from its text, whatever the layout, as long as only blanks stand between
the parts: the text is JSON and stands for the value (`spells_write`), so that it is read as the value. `read?_compact`
and `read?_pretty` are the two layouts.
-/

namespace EventCamera

namespace JsonValue

/-! ## Layouts -/

/-- Between the parts stand blanks, and one colon between a name and its value. -/
structure Layout.Spaced (l : Layout) : Prop where
  before : ∀ level, Blank (l.before level)
  colon : ∃ spaces, l.colon = ':' :: spaces ∧ Blank spaces

theorem Layout.spaced_compact : Layout.compact.Spaced where
  before _ c hc := by cases hc
  colon := ⟨[], rfl, fun c hc => by cases hc⟩

theorem Layout.spaced_pretty : Layout.pretty.Spaced where
  before level c hc := by
    rcases List.mem_cons.1 hc with rfl | hc
    · rfl
    · rw [List.eq_of_mem_replicate hc]
      rfl
  colon := ⟨[' '], rfl, fun c hc => by rw [List.mem_singleton.1 hc]; rfl⟩

/-! ## Strings -/

theorem hexUnit?_hexDigit {n : Nat} (h : n < 32) :
    hexUnit? '0' '0' (hexDigit (n / 16)) (hexDigit (n % 16)) = some n := by
  have hall : ∀ n : Fin 32, hexUnit? '0' '0' (hexDigit (n.val / 16)) (hexDigit (n.val % 16)) = some n.val := by decide
  exact hall ⟨n, h⟩

/-- The three ways in which a character is written. -/
theorem escape_cases (c : Char) :
    -- A letter stands for it.
    (∃ e, escape c = ['\\', e] ∧ simpleEscape? e = some c) ∨
    -- It is written as a number.
    (c.toNat < 32 ∧ escape c = ['\\', 'u', '0', '0', hexDigit (c.toNat / 16), hexDigit (c.toNat % 16)]) ∨
    -- It stands for itself.
    (c ≠ '"' ∧ c ≠ '\\' ∧ 32 ≤ c.toNat ∧ escape c = [c]) := by
  unfold escape
  split_ifs with hquote hback hline hreturn htab hbackspace hfeed hcontrol
  · exact .inl ⟨_, rfl, by rw [hquote]; rfl⟩
  · exact .inl ⟨_, rfl, by rw [hback]; rfl⟩
  · exact .inl ⟨_, rfl, by rw [hline]; rfl⟩
  · exact .inl ⟨_, rfl, by rw [hreturn]; rfl⟩
  · exact .inl ⟨_, rfl, by rw [htab]; rfl⟩
  · exact .inl ⟨_, rfl, by rw [hbackspace]; rfl⟩
  · exact .inl ⟨_, rfl, by rw [hfeed]; rfl⟩
  · exact .inr (.inl ⟨hcontrol, rfl⟩)
  · exact .inr (.inr ⟨hquote, hback, Nat.not_lt.1 hcontrol, rfl⟩)

/-- A character is written as one unit, which stands for it. -/
theorem exists_unit_escape (c : Char) {units : List (Nat ⊕ Char)} {inside cs : List Char} (h : Inside units inside)
    (hs : Stands units cs) : ∃ unit, Inside (unit :: units) (escape c ++ inside) ∧ Stands (unit :: units) (c :: cs) := by
  rcases escape_cases c with ⟨e, he, hc⟩ | ⟨hc, he⟩ | ⟨hquote, hback, hc, he⟩
  · rw [he]
    exact ⟨_, .letter hc h, .char hs⟩
  · rw [he]
    exact ⟨_, .number (hexUnit?_hexDigit hc) h, .unit (by omega) hs⟩
  · rw [he]
    exact ⟨_, .plain hquote hback hc h, .char hs⟩

theorem quoted_quoted (s : String) : Quoted (some s) (quoted s) := by
  have hunits : ∀ cs : List Char, ∃ units, Inside units (cs.flatMap escape) ∧ Stands units cs := by
    intro cs
    induction cs with
    | nil => exact ⟨[], .nil, .nil⟩
    | cons c cs ih =>
      obtain ⟨units, hinside, hstands⟩ := ih
      obtain ⟨unit, hinside, hstands⟩ := exists_unit_escape c hinside hstands
      exact ⟨unit :: units, hinside, hstands⟩
  obtain ⟨units, hinside, hstands⟩ := hunits s.toList
  exact ⟨units, _, hinside, hstands, rfl⟩

/-! ## Values -/

/-- A value that nothing foreign is in. -/
inductive Native : JsonValue → Prop where
  | null : Native null
  | bool (b : Bool) : Native (bool b)
  | integer (i : Int) : Native (integer i)
  | string (s : String) : Native (string s)
  | array (items : List JsonValue) (h : ∀ item ∈ items, Native item) : Native (array items)
  | object (members : List (String × JsonValue)) (h : ∀ member ∈ members, Native member.2) : Native (object members)

variable {l : Layout} {level : Nat}

/-- The items of an array, each with the blanks before it. -/
theorem items_write (hl : l.Spaced) {item : JsonValue} {items : List JsonValue}
    (h : ∀ v ∈ item :: items, Spells v (write l (level + 1) v)) :
    ∃ text, Items (item :: items) text ∧
      l.before (level + 1) ++ (write l (level + 1) item ++ writeItems l level items) = text ++ [']'] := by
  have hitem := h item List.mem_cons_self
  induction items generalizing item with
  | nil =>
    refine ⟨_, .single (.padded (hl.before (level + 1)) hitem (hl.before level)), ?_⟩
    simp only [writeItems, List.append_assoc]
  | cons next items ih =>
    obtain ⟨text, hitems, htext⟩ := ih (fun v hv => h v (List.mem_cons_of_mem _ hv))
      (h next (List.mem_cons_of_mem _ List.mem_cons_self))
    refine ⟨_, .cons (.padded (hl.before (level + 1)) hitem blank_nil) hitems, ?_⟩
    simp only [writeItems, List.append_assoc, List.cons_append, List.nil_append, htext]

/-- The members of an object, each with the blanks before its name and before its value. -/
theorem members_write (hl : l.Spaced) {member : String × JsonValue} {members : List (String × JsonValue)}
    (h : ∀ m ∈ member :: members, Spells m.2 (write l (level + 1) m.2)) :
    ∃ text, Members (some (member :: members)) text ∧
      l.before (level + 1) ++ (quoted member.1 ++ (l.colon ++ (write l (level + 1) member.2 ++
        writeMembers l level members))) = text ++ ['\x7d'] := by
  obtain ⟨spaces, hcolon, hspaces⟩ := hl.colon
  have hmember := h member List.mem_cons_self
  -- the member with the blanks after its value
  let part (after : List Char) : Member := ⟨some member.1, l.before (level + 1) ++ (quoted member.1 ++ []), member.2,
    spaces ++ write l (level + 1) member.2 ++ after⟩
  have hnamed : ∀ after, (part after).Named :=
    fun _ => ⟨_, _, _, hl.before _, quoted_quoted member.1, blank_nil, rfl⟩
  induction members generalizing member with
  | nil =>
    refine ⟨_, .single (hnamed (l.before level)) (.padded hspaces hmember (hl.before level)), ?_⟩
    simp [writeMembers, Member.written, hcolon, part]
  | cons next members ih =>
    obtain ⟨text, hmembers, htext⟩ := ih (fun v hv => h v (List.mem_cons_of_mem _ hv))
      (h next (List.mem_cons_of_mem _ List.mem_cons_self))
      fun _ => ⟨_, _, _, hl.before _, quoted_quoted next.1, blank_nil, rfl⟩
    refine ⟨_, .cons (hnamed []) (.padded hspaces hmember blank_nil) hmembers, ?_⟩
    obtain ⟨name, value⟩ := next
    simp only [writeMembers, Member.written, hcolon, part, List.append_assoc, List.cons_append, List.nil_append] at htext ⊢
    rw [htext]

/-- Whatever the layout, the text of a value is JSON and stands for the value. -/
theorem spells_write (hl : l.Spaced) {v : JsonValue} (h : Native v) (level : Nat) : Spells v (write l level v) := by
  induction h generalizing level with
  | null => exact .null
  | bool b =>
    cases b with
    | true => exact .true
    | false => exact .false
  | integer i => exact .integer i
  | string s => exact .string (quoted_quoted s)
  | array items _ ih =>
    cases items with
    | nil => exact .emptyArray blank_nil
    | cons item items =>
      obtain ⟨text, hitems, htext⟩ := items_write hl fun v hv => ih v hv (level + 1)
      have h := hitems.array
      rw [List.cons_append, ← htext] at h
      rw [write]
      simpa only [List.append_assoc, List.cons_append] using h
  | object members _ ih =>
    cases members with
    | nil => exact .emptyObject blank_nil
    | cons member members =>
      obtain ⟨text, hmembers, htext⟩ := members_write hl fun m hm => ih m hm (level + 1)
      have h := hmembers.object
      rw [ofMembers, List.cons_append, ← htext] at h
      rw [write]
      simpa only [List.append_assoc, List.cons_append] using h

/-! ## Whole texts -/

theorem read?_compact {v : JsonValue} (h : Native v) : read? v.compact = some v :=
  read?_of_spells (by rw [compact, String.toList_ofList]; exact spells_write Layout.spaced_compact h 0)

theorem read?_pretty {v : JsonValue} (h : Native v) : read? v.pretty = some v :=
  read?_of_spells (by rw [pretty, String.toList_ofList]; exact spells_write Layout.spaced_pretty h 0)

end JsonValue

end EventCamera
