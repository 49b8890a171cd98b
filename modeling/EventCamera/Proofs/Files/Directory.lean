import EventCamera.Files.Atomic
import EventCamera.Proofs.Text.Marks
import Mathlib
/-!
# Files of a directory

A plain name behind a path that leads to a directory leads to the entry of that name in it
(`Leads.locate_child`). Atomic writing puts a file there and leaves nothing else behind
(`writeAtomically_child`). No operation on files takes a directory away (`Keeps`), so a path that leads to
a directory goes on leading there.
-/

namespace EventCamera

namespace Path

/-! ## Pieces of a path -/

theorem segments_ne_nil (cs : List Char) : segments cs ≠ [] := by
  induction cs with
  | nil => simp [segments]
  | cons c cs ih =>
    unfold segments
    split
    · simp
    · split <;> simp

/-- A slash cuts a text in two. -/
theorem segments_append (cs rest : List Char) :
    segments (cs ++ '/' :: rest) = segments cs ++ segments rest := by
  induction cs with
  | nil => simp [segments]
  | cons c cs ih =>
    rw [List.cons_append, segments, ih, segments]
    split
    · rfl
    · rcases hs : segments cs with _ | ⟨s, ss⟩
      · exact absurd hs (segments_ne_nil cs)
      · rfl

theorem segments_of_not_mem {cs : List Char} (h : '/' ∉ cs) : segments cs = [cs] := by
  induction cs with
  | nil => rfl
  | cons c cs ih =>
    obtain ⟨hc, hcs⟩ := not_or.1 (mt List.mem_cons.2 h)
    rw [segments, if_neg (Ne.symm hc), ih hcs]

/-- The pieces make up the text again. -/
theorem joinSegments_segments (cs : List Char) : joinSegments (segments cs) = cs := by
  induction cs with
  | nil => rfl
  | cons c cs ih =>
    rw [segments]
    split
    · next hc =>
      subst hc
      rcases hs : segments cs with _ | ⟨s, ss⟩
      · exact absurd hs (segments_ne_nil cs)
      · rw [hs] at ih
        simpa [joinSegments, List.intercalate_cons_cons] using ih
    · rcases hs : segments cs with _ | ⟨s, ss⟩
      · exact absurd hs (segments_ne_nil cs)
      · rw [hs] at ih
        cases ss with
        | nil => simpa [joinSegments] using ih
        | cons s' ss => simpa [joinSegments, List.intercalate_cons_cons] using ih

/-- What comes before the slash in front of an entry's name. -/
def front (p : Path) : List Char := if p.endsInSlash then p.text.toList.dropLast else p.text.toList

theorem front_of_endsInSlash {p : Path} (h : p.endsInSlash = true) : p.text.toList = p.front ++ ['/'] := by
  have hlast : p.text.toList.getLast? = some '/' := by simpa [endsInSlash] using h
  obtain ⟨cs, hcs⟩ := List.getLast?_eq_some_iff.1 hlast
  simp [front, h, hcs]

theorem front_of_not_endsInSlash {p : Path} (h : p.endsInSlash = false) : p.front = p.text.toList := by
  simp [front, h]

/-- A slash at the end adds no piece that has a name. -/
theorem filter_segments_front (p : Path) {named : List Char → Bool} (h : named [] = false) :
    (segments p.front).filter named = (segments p.text.toList).filter named := by
  cases hs : p.endsInSlash with
  | true =>
    rw [front_of_endsInSlash hs, segments_append]
    simp [segments, h]
  | false => rw [front_of_not_endsInSlash hs]

/-- The pieces in front of an entry's name. -/
def prior (p : Path) : List (List Char) := if p.text.isEmpty then [] else segments p.front

theorem filter_prior (p : Path) {named : List Char → Bool} (h : named [] = false) :
    p.prior.filter named = (segments p.text.toList).filter named := by
  unfold prior
  split
  · next hp =>
    have hnil : p.text.toList = [] := by simpa using hp
    simp [hnil, segments, h]
  · exact filter_segments_front p h

/-! ## Plain names -/

/-- The name of an entry: one piece that means itself. -/
structure Plain (name : String) : Prop where
  slash : '/' ∉ name.toList
  zero : Char.ofNat 0 ∉ name.toList
  ne_empty : name.toList ≠ []
  ne_here : name.toList ≠ ['.']
  ne_back : name.toList ≠ ['.', '.']

variable {p : Path} {name : String}

/-- Neither a slash nor a zero is in the text, so it can be a part of a name. -/
structure Unbroken (text : String) : Prop where
  slash : '/' ∉ text.toList
  zero : Char.ofNat 0 ∉ text.toList

theorem Unbroken.append {text text' : String} (h : Unbroken text) (h' : Unbroken text') : Unbroken (text ++ text') := by
  refine ⟨?_, ?_⟩
  · rw [String.toList_append, List.mem_append]
    exact not_or.2 ⟨h.slash, h'.slash⟩
  · rw [String.toList_append, List.mem_append]
    exact not_or.2 ⟨h.zero, h'.zero⟩

/-- Such a text that does not begin with a dot is a name. -/
theorem Unbroken.plain (h : Unbroken name) {c : Char} (hhead : name.toList.head? = some c) (hdot : c ≠ '.') :
    Plain name := by
  refine ⟨h.slash, h.zero, ?_, ?_, ?_⟩
  · intro hname
    rw [hname] at hhead
    cases hhead
  · intro hname
    rw [hname] at hhead
    exact hdot (Option.some.inj hhead).symm
  · intro hname
    rw [hname] at hhead
    exact hdot (Option.some.inj hhead).symm

/-- A name with an extension. -/
theorem Unbroken.plain_extended {stem ext : String} (h : Unbroken stem) (hext : Unbroken ext) {c : Char}
    (hhead : stem.toList.head? = some c) (hdot : c ≠ '.') : Plain (stem ++ "." ++ ext) := by
  have hpoint : Unbroken "." := ⟨by decide, by decide⟩
  refine ((h.append hpoint).append hext).plain (c := c) ?_ hdot
  simp [hhead]

theorem Plain.isAbsolute (h : Plain name) : (Path.mk name).isAbsolute = false := by
  rcases hn : name.toList with _ | ⟨c, cs⟩
  · simp [Path.isAbsolute, hn]
  · have hc : c ≠ '/' := by
      rintro rfl
      exact h.slash (by simp [hn])
    simp [Path.isAbsolute, hn, hc]

/-- Behind the empty path a name stands by itself. -/
theorem child_of_isEmpty (hp : p.text.isEmpty = true) (name : String) : p.child name = ⟨name⟩ := by
  simp [child, join, hp]

theorem text_child (hp : p.text.isEmpty = false) (h : Plain name) :
    (p.child name).text = if p.endsInSlash then p.text ++ name else p.text ++ "/" ++ name := by
  rw [child, join, h.isAbsolute, hp]
  cases p.endsInSlash <;> rfl

theorem toList_text_child (hp : p.text.isEmpty = false) (h : Plain name) :
    (p.child name).text.toList = p.front ++ '/' :: name.toList := by
  rw [text_child hp h]
  cases hs : p.endsInSlash with
  | true => simp [front_of_endsInSlash hs]
  | false => simp [front_of_not_endsInSlash hs]

theorem isAbsolute_child (p : Path) (h : Plain name) : (p.child name).isAbsolute = p.isAbsolute := by
  cases hp : p.text.isEmpty with
  | true =>
    have hnil : p.text.toList = [] := by simpa using hp
    rw [child_of_isEmpty hp, h.isAbsolute, isAbsolute, hnil]
    rfl
  | false =>
    have hne : p.text.toList ≠ [] := by simpa using hp
    obtain ⟨c, cs, hc⟩ := List.exists_cons_of_ne_nil hne
    rw [isAbsolute, isAbsolute, text_child hp h]
    cases p.endsInSlash <;> simp [hc]

theorem isEmpty_text_child (p : Path) (h : Plain name) : (p.child name).text.isEmpty = false := by
  rw [String.isEmpty_eq_false_iff, ne_eq, ← String.toList_eq_nil_iff]
  cases hp : p.text.isEmpty with
  | true =>
    rw [child_of_isEmpty hp]
    exact h.ne_empty
  | false =>
    rw [toList_text_child hp h]
    simp

theorem segments_child (p : Path) (h : Plain name) :
    segments (p.child name).text.toList = p.prior ++ [name.toList] := by
  cases hp : p.text.isEmpty with
  | true =>
    rw [child_of_isEmpty hp, prior, if_pos hp]
    exact segments_of_not_mem h.slash
  | false => rw [toList_text_child hp h, segments_append, segments_of_not_mem h.slash, prior, if_neg (by simp [hp])]

theorem names_child (p : Path) (h : Plain name) : (p.child name).names = p.names ++ [name] := by
  have hname : (name.toList != [] && name.toList != ['.']) = true := by simp [h.ne_empty, h.ne_here]
  rw [names, segments_child p h, List.filter_append, filter_prior p (by rfl)]
  simp [names, hname]

theorem endsInDot_child (p : Path) (h : Plain name) : (p.child name).endsInDot = false := by
  have hname : (name.toList != []) = true := by simp [h.ne_empty]
  rw [endsInDot, lastPiece, segments_child p h, List.filter_append]
  simp [hname, h.ne_here]

theorem endsInSlash_child (p : Path) (h : Plain name) : (p.child name).endsInSlash = false := by
  have hlast : name.toList.getLast? ≠ some '/' := fun hl => h.slash (List.mem_of_getLast? hl)
  cases hp : p.text.isEmpty with
  | true =>
    rw [child_of_isEmpty hp]
    simpa [endsInSlash] using hlast
  | false =>
    rw [endsInSlash, toList_text_child hp h, List.getLast?_append, List.getLast?_cons]
    cases hn : name.toList.getLast? with
    | none => exact absurd (List.getLast?_eq_none_iff.1 hn) h.ne_empty
    | some c => simpa [hn] using hlast

theorem zero_mem_child_iff (p : Path) (h : Plain name) :
    (p.child name).text.toList.contains (Char.ofNat 0) = p.text.toList.contains (Char.ofNat 0) := by
  have hz := h.zero
  cases hp : p.text.isEmpty with
  | true =>
    have hnil : p.text.toList = [] := by simpa using hp
    simp [child_of_isEmpty hp, hnil, hz]
  | false =>
    rw [text_child hp h]
    cases p.endsInSlash <;> simp [hz]

theorem utf8ByteSize_child (hp : p.text.isEmpty = false) (h : Plain name) :
    (p.child name).text.utf8ByteSize =
      (if p.endsInSlash then p.text.utf8ByteSize else p.text.utf8ByteSize + 1) + name.utf8ByteSize := by
  rw [text_child hp h]
  cases p.endsInSlash with
  | true => exact String.utf8ByteSize_append
  | false =>
    rw [if_neg (by simp), String.utf8ByteSize_append, String.utf8ByteSize_append]
    rfl

/-- The last dot and what follows it is replaced. -/
theorem replaceExtension_append {stem ext : List Char} (hstem : stem ≠ []) (hext : '.' ∉ ext) (other : List Char) :
    replaceExtension other (stem ++ '.' :: ext) = stem ++ '.' :: other := by
  have hdot : (stem ++ '.' :: ext).reverse = ext.reverse ++ '.' :: stem.reverse := by simp
  have hafter : (stem ++ '.' :: ext).reverse.takeWhile (· != '.') = ext.reverse := by
    rw [hdot, takeWhile_bne_append (by simpa using hext)]
  have hdrop : (ext.reverse ++ '.' :: stem.reverse).drop (ext.reverse.length + 1) = stem.reverse := by
    rw [List.drop_append]
    simp
  rw [replaceExtension, hafter, hdot, hdrop, List.reverse_reverse, if_neg (by simpa using hstem)]

/-- The entry beside a plainly named one that has another extension. -/
theorem withExtension_child (p : Path) {stem old ext : String} (h : Plain (stem ++ "." ++ old))
    (h' : Plain (stem ++ "." ++ ext)) (hstem : stem.toList ≠ []) (hold : '.' ∉ old.toList) :
    (p.child (stem ++ "." ++ old)).withExtension ext = p.child (stem ++ "." ++ ext) := by
  have hname : ∀ last : String, (stem ++ "." ++ last).toList = stem.toList ++ '.' :: last.toList := by simp
  rw [withExtension, segments_child p h]
  simp only [List.getLast?_append, List.getLast?_singleton, Option.some_or, List.dropLast_concat]
  rw [hname, replaceExtension_append hstem hold, ← hname, ← segments_child p h', joinSegments_segments,
    String.ofList_toList]

/-- The second path is the first, or its parent, or the parent of that, and so on. -/
abbrev Within : Path → Path → Prop := Relation.ReflTransGen fun p parent => p.parent? = some parent

end Path

namespace FileTree

open EventCamera.Path

variable {tree next : FileTree} {p dir : Path} {loc : Location}

/-! ## Where a path leads -/

/-- Where a path starts from. -/
def base (tree : FileTree) (p : Path) : Location := if p.isAbsolute then [] else tree.workingDirectory

theorem confirm_eq_ok_iff {loc' : Location} {needsDirectory : Bool} :
    tree.confirm loc needsDirectory = .ok loc' ↔
      loc = loc' ∧ (needsDirectory = true → tree.lookup loc = some .directory) := by
  cases needsDirectory with
  | false => simp [confirm]
  | true =>
    rcases h : tree.lookup loc with _ | _ | _ <;> simp [confirm, h]

theorem locate_eq_ok_iff :
    tree.locate p = .ok loc ↔
      p.text.toList.contains (Char.ofNat 0) = false ∧ p.text.isEmpty = false ∧
      p.text.utf8ByteSize ≤ longestPath ∧ tree.follow (tree.base p) p.names = .ok loc ∧
      (p.endsInDot = true → tree.lookup loc = some .directory) := by
  unfold locate
  split
  · next hz =>
    rw [hz]
    simp
  · next hz =>
    split
    · next he => simp [he]
    · next he =>
      split
      · next hl =>
        have hnot : ¬p.text.utf8ByteSize ≤ longestPath := by omega
        simp [hnot]
      · next hl =>
        have hle : p.text.utf8ByteSize ≤ longestPath := by omega
        rw [← base]
        cases hf : tree.follow (tree.base p) p.names with
        | error e => simp
        | ok loc' =>
          simp only [confirm_eq_ok_iff, Except.ok.injEq]
          constructor
          · rintro ⟨rfl, hdot⟩
            exact ⟨by simpa using hz, by simpa using he, hle, rfl, hdot⟩
          · rintro ⟨-, -, -, rfl, hdot⟩
            exact ⟨rfl, hdot⟩

theorem find_eq_ok_iff :
    tree.find p = .ok loc ↔
      tree.locate p = .ok loc ∧ (p.endsInSlash = true → tree.lookup loc = some .directory) := by
  unfold find
  cases tree.locate p with
  | error e => simp
  | ok loc' =>
    simp only [confirm_eq_ok_iff, Except.ok.injEq]
    constructor
    · rintro ⟨rfl, hslash⟩
      exact ⟨rfl, hslash⟩
    · rintro ⟨rfl, hslash⟩
      exact ⟨rfl, hslash⟩

/-- One name more leads on, or back, from a directory. -/
theorem follow_concat_iff {names : List String} {name : String} {start : Location} :
    tree.follow start (names ++ [name]) = .ok loc ↔
      ∃ parent, tree.follow start names = .ok parent ∧ tree.lookup parent = some .directory ∧
        loc = if name == ".." then parent.dropLast else parent ++ [name] := by
  induction names generalizing start with
  | nil =>
    simp only [List.nil_append, follow, Except.ok.injEq]
    split
    · next hl => simp [hl]
    · next hl => simp [hl]
    · next hl =>
      rw [Except.ok.injEq]
      constructor
      · rintro rfl
        exact ⟨start, rfl, hl, rfl⟩
      · rintro ⟨_, rfl, -, rfl⟩
        rfl
  | cons n rest ih =>
    rw [List.cons_append, follow, follow]
    split
    · simp
    · simp
    · exact ih

/-- A plain name behind a path leads into the directory that the path leads to. A path that ends in a dot or not, or is
empty, is followed alike. -/
theorem locate_child_iff {name : String} (h : Plain name) :
    tree.locate (p.child name) = .ok loc ↔
      p.text.toList.contains (Char.ofNat 0) = false ∧ (p.child name).text.utf8ByteSize ≤ longestPath ∧
      ∃ parent, tree.follow (tree.base p) p.names = .ok parent ∧ tree.lookup parent = some .directory ∧
        loc = parent ++ [name] := by
  have hbase : tree.base (p.child name) = tree.base p := by
    rw [base, base, isAbsolute_child p h]
  have hback : (name == "..") = false := by
    rw [beq_eq_false_iff_ne]
    rintro rfl
    exact h.ne_back (by decide)
  rw [locate_eq_ok_iff, zero_mem_child_iff p h, hbase, names_child p h, follow_concat_iff, hback, endsInDot_child p h]
  simp [isEmpty_text_child p h]

/-- Different names behind a path lead to different places. -/
theorem locate_child_ne {name name' : String} (h : Plain name) (h' : Plain name') (hne : name ≠ name')
    {loc' : Location} (hl : tree.locate (p.child name) = .ok loc) (hl' : tree.locate (p.child name') = .ok loc') :
    loc ≠ loc' := by
  obtain ⟨-, -, parent, -, -, rfl⟩ := (locate_child_iff h).1 hl
  obtain ⟨-, -, parent', -, -, rfl⟩ := (locate_child_iff h').1 hl'
  intro heq
  exact hne (by simpa using congrArg List.getLast? heq)

/-- The path leads to a directory. -/
structure Leads (tree : FileTree) (p : Path) (loc : Location) : Prop where
  locate : tree.locate p = .ok loc
  directory : tree.lookup loc = some .directory

theorem isDirectory_iff : tree.isDirectory p = true ↔ ∃ loc, tree.Leads p loc := by
  simp only [isDirectory, entry?, beq_iff_eq]
  constructor
  · intro h
    cases hf : tree.find p with
    | error e => simp [hf] at h
    | ok loc => exact ⟨loc, (find_eq_ok_iff.1 hf).1, by simpa [hf] using h⟩
  · rintro ⟨loc, hl, hd⟩
    have hf : tree.find p = .ok loc := find_eq_ok_iff.2 ⟨hl, fun _ => hd⟩
    rw [hf]
    exact hd

theorem Leads.isEmpty_text (h : tree.Leads p loc) : p.text.isEmpty = false := (locate_eq_ok_iff.1 h.locate).2.1

/-- The entry of a plain name in the directory. -/
theorem Leads.locate_child (h : tree.Leads dir loc) {name : String} (hname : Plain name)
    (hroom : (dir.child name).text.utf8ByteSize ≤ longestPath) :
    tree.locate (dir.child name) = .ok (loc ++ [name]) := by
  obtain ⟨hz, -, -, hf, -⟩ := locate_eq_ok_iff.1 h.locate
  exact (locate_child_iff hname).2 ⟨hz, hroom, loc, hf, h.directory, rfl⟩

/-! ## What an operation does -/

theorem createDirectory_eq_ok (h : tree.createDirectory p = .ok next) :
    ∃ loc, tree.locate p = .ok loc ∧ tree.lookup loc = none ∧ next = tree.put loc .directory := by
  unfold createDirectory at h
  split at h
  · cases h
  · next loc hlocate =>
    split at h
    · cases h
    · next hnone => exact ⟨loc, hlocate, hnone, (place_eq_ok_iff.1 h).2.symm⟩

/-- Where the file is created. -/
theorem createFile_eq_ok (h : tree.createFile p = .ok next) :
    ∃ loc, tree.locate p = .ok loc ∧ p.endsInSlash = false ∧ tree.lookup loc ≠ some .directory ∧
      next = tree.put loc (.file []) := by
  unfold createFile at h
  split at h
  · cases h
  · next loc hlocate =>
    split at h
    · cases h
    · next hslash =>
      split at h
      · cases h
      · next hdirectory => exact ⟨loc, hlocate, by simpa using hslash, hdirectory, (place_eq_ok_iff.1 h).2.symm⟩

theorem appendFile_eq_ok {bytes : Bytes} (h : tree.appendFile p bytes = .ok next) :
    ∃ loc content, tree.locate p = .ok loc ∧ tree.lookup loc = some (.file content) ∧
      next = tree.put loc (.file (content ++ bytes)) := by
  unfold appendFile at h
  split at h
  · cases h
  · next loc hfind =>
    split at h
    · cases h
    · cases h
    · next content hlookup =>
      cases h
      exact ⟨loc, content, (find_eq_ok_iff.1 hfind).1, hlookup, rfl⟩

theorem renameFile_eq_ok {old new : Path} (h : tree.renameFile old new = .ok next) :
    ∃ source target content, tree.locate old = .ok source ∧ tree.lookup source = some (.file content) ∧
      tree.locate new = .ok target ∧ tree.lookup target ≠ some .directory ∧
      next = (tree.erase source).put target (.file content) := by
  unfold renameFile at h
  split at h
  · cases h
  · cases h
  · next source target hold hnew =>
    split at h
    · cases h
    · cases h
    · cases h
    · next content hsource htarget =>
      exact ⟨source, target, content, hold, hsource, hnew, htarget, (place_eq_ok_iff.1 h).2.symm⟩

theorem removeFile_eq_ok (h : tree.removeFile p = .ok next) :
    ∃ loc content, tree.locate p = .ok loc ∧ tree.lookup loc = some (.file content) ∧ next = tree.erase loc := by
  unfold removeFile at h
  split at h
  · cases h
  · next loc hfind =>
    split at h
    · cases h
    · cases h
    · next content hlookup =>
      cases h
      exact ⟨loc, content, (find_eq_ok_iff.1 hfind).1, hlookup, rfl⟩

/-! ## Directories stay -/

/-- There is always a directory at the root. -/
theorem ne_root (h : tree.lookup loc ≠ some .directory) : loc ≠ [] := by
  rintro rfl
  exact h rfl

theorem lookup_put_of_not_directory (h : tree.lookup loc ≠ some .directory) (entry : Entry) :
    (tree.put loc entry).lookup loc = some entry := lookup_put_self tree entry (ne_root h)

theorem lookup_erase_of_not_directory (h : tree.lookup loc ≠ some .directory) : (tree.erase loc).lookup loc = none :=
  lookup_erase_self tree (ne_root h)

theorem not_directory_erase {other : Location} (h : tree.lookup other ≠ some .directory) :
    (tree.erase loc).lookup other ≠ some .directory := by
  by_cases heq : other = loc
  · rw [← heq, lookup_erase_of_not_directory h]
    nofun
  · rwa [lookup_erase_of_ne tree heq]

/-- All directories are still there, and relative paths start where they did. -/
structure Keeps (tree next : FileTree) : Prop where
  directory : ∀ loc, tree.lookup loc = some .directory → next.lookup loc = some .directory
  workingDirectory : next.workingDirectory = tree.workingDirectory

theorem Keeps.refl (tree : FileTree) : tree.Keeps tree := ⟨fun _ => id, rfl⟩

theorem Keeps.trans {last : FileTree} (h : tree.Keeps next) (h' : next.Keeps last) : tree.Keeps last :=
  ⟨fun loc hd => h'.directory loc (h.directory loc hd), h'.workingDirectory.trans h.workingDirectory⟩

/-- A file, or a directory, in place of what is no directory. -/
theorem keeps_put (h : tree.lookup loc ≠ some .directory) (entry : Entry) : tree.Keeps (tree.put loc entry) := by
  refine ⟨fun other hd => ?_, rfl⟩
  have hne : other ≠ loc := by
    rintro rfl
    exact h hd
  rw [lookup_put_of_ne tree entry hne, hd]

theorem keeps_erase (h : tree.lookup loc ≠ some .directory) : tree.Keeps (tree.erase loc) := by
  refine ⟨fun other hd => ?_, rfl⟩
  have hne : other ≠ loc := by
    rintro rfl
    exact h hd
  rw [lookup_erase_of_ne tree hne, hd]

theorem Keeps.follow (h : tree.Keeps next) {names : List String} {start : Location}
    (hf : tree.follow start names = .ok loc) : next.follow start names = .ok loc := by
  induction names generalizing start with
  | nil => exact hf
  | cons n rest ih =>
    rw [FileTree.follow] at hf
    split at hf
    · cases hf
    · cases hf
    · next hd =>
      rw [FileTree.follow, h.directory _ hd]
      exact ih hf

/-- A path goes on leading where it led. -/
theorem Keeps.locate (hk : tree.Keeps next) (h : tree.locate p = .ok loc) : next.locate p = .ok loc := by
  obtain ⟨hz, he, hl, hf, hdot⟩ := locate_eq_ok_iff.1 h
  have hbase : next.base p = tree.base p := by rw [base, base, hk.workingDirectory]
  exact locate_eq_ok_iff.2 ⟨hz, he, hl, hbase ▸ hk.follow hf, fun hd => hk.directory loc (hdot hd)⟩

/-- A path that leads to a directory goes on leading there. -/
theorem Leads.keeps (h : tree.Leads p loc) (hk : tree.Keeps next) : next.Leads p loc :=
  ⟨hk.locate h.locate, hk.directory loc h.directory⟩

theorem keeps_createDirectory (h : tree.createDirectory p = .ok next) : tree.Keeps next := by
  obtain ⟨loc, -, hnone, rfl⟩ := createDirectory_eq_ok h
  exact keeps_put (by simp [hnone]) _

/-- The way to a directory keeps what is kept by creating any one directory on it, whether the end is reached or
not. -/
theorem createDirectoriesUpTo_induction {holds : FileTree → Prop} (depth : Nat) {tree : FileTree} {p : Path}
    (hstep : ∀ q mid next, p.Within q → holds mid → mid.createDirectory q = .ok next → holds next) (h : holds tree) :
    holds (createDirectoriesUpTo depth tree p).2 := by
  induction depth generalizing p with
  | zero =>
    unfold createDirectoriesUpTo
    split
    · exact h
    · split
      · next hcreate => exact hstep p tree _ .refl h hcreate
      · exact h
      · exact h
  | succ depth ih =>
    unfold createDirectoriesUpTo
    split
    · exact h
    · split
      · next hcreate => exact hstep p tree _ .refl h hcreate
      · split
        · next parent heq hp =>
          cases heq
          have hparent := ih fun q mid next hq => hstep q mid next (.head hp hq)
          split
          · next hway =>
            rw [hway] at hparent
            exact hparent
          · next hway =>
            rw [hway] at hparent
            split
            · next hcreate => exact hstep p _ _ .refl hparent hcreate
            · exact hparent
        · exact h
      · exact h

theorem createDirectories_induction {holds : FileTree → Prop} {tree : FileTree} {p : Path}
    (hstep : ∀ q mid next, p.Within q → holds mid → mid.createDirectory q = .ok next → holds next) (h : holds tree) :
    holds (tree.createDirectories p).2 :=
  createDirectoriesUpTo_induction _ hstep h

/-- A new directory is where nothing was, and its path leads there. -/
theorem leads_createDirectory (h : tree.createDirectory p = .ok next) :
    ∃ loc, tree.lookup loc = none ∧ next.Leads p loc := by
  have hkeeps := keeps_createDirectory h
  obtain ⟨loc, hlocate, hnone, rfl⟩ := createDirectory_eq_ok h
  exact ⟨loc, hnone, hkeeps.locate hlocate, lookup_put_of_not_directory (by simp [hnone]) _⟩

theorem keeps_perform {step : FileStep} (h : tree.perform step = .ok next) : tree.Keeps next := by
  cases step with
  | create p =>
    obtain ⟨loc, -, -, hdirectory, rfl⟩ := createFile_eq_ok h
    exact keeps_put hdirectory _
  | append p bytes =>
    obtain ⟨loc, content, -, hfile, rfl⟩ := appendFile_eq_ok h
    exact keeps_put (by simp [hfile]) _
  | rename old new =>
    obtain ⟨source, target, content, -, hfile, -, hdirectory, rfl⟩ := renameFile_eq_ok h
    have hsource : tree.lookup source ≠ some .directory := by simp [hfile]
    exact (keeps_erase hsource).trans (keeps_put (not_directory_erase hdirectory) _)
  | remove p =>
    obtain ⟨loc, content, -, hfile, rfl⟩ := removeFile_eq_ok h
    exact keeps_erase (by simp [hfile])

/-! ## Writing a file of a directory -/

theorem erase_put (tree : FileTree) (loc : Location) (entry : Entry) :
    (tree.put loc entry).erase loc = tree.erase loc := by
  simp [erase, put]

/-- A file is written into a directory whose path leaves room for its name. Its temporary sibling is gone. -/
theorem writeAtomically_child (h : tree.Leads dir loc) {name sibling : String} (hname : Plain name)
    (hsibling : Plain sibling) (htemporary : temporary (dir.child name) = dir.child sibling)
    (hroom : (dir.child name).text.utf8ByteSize ≤ longestPath)
    (hroom' : (dir.child sibling).text.utf8ByteSize ≤ longestPath)
    (hfits : canBeNamed (loc ++ [name]) = true) (hfits' : canBeNamed (loc ++ [sibling]) = true)
    (hfile : tree.lookup (loc ++ [name]) ≠ some .directory)
    (hfile' : tree.lookup (loc ++ [sibling]) ≠ some .directory) (hne : name ≠ sibling) (bytes : Bytes) :
    tree.writeAtomically (dir.child name) bytes =
      (.ok (), (tree.erase (loc ++ [sibling])).put (loc ++ [name]) (.file bytes)) := by
  have hlocation : loc ++ [name] ≠ loc ++ [sibling] := by simpa using hne
  -- The temporary file is created and filled.
  have hcreate : tree.createFile (dir.child sibling) = .ok (tree.put (loc ++ [sibling]) (.file [])) := by
    rw [createFile, h.locate_child hsibling hroom']
    dsimp only
    rw [if_neg (by simp [endsInSlash_child dir hsibling])]
    split
    · next hd => exact absurd hd hfile'
    · exact place_eq_ok_iff.2 ⟨hfits', rfl⟩
  have h₁ : (tree.put (loc ++ [sibling]) (.file [])).Leads dir loc := h.keeps (keeps_put hfile' _)
  have happend : (tree.put (loc ++ [sibling]) (.file [])).appendFile (dir.child sibling) bytes =
      .ok ((tree.put (loc ++ [sibling]) (.file [])).put (loc ++ [sibling]) (.file bytes)) := by
    have hfind : (tree.put (loc ++ [sibling]) (.file [])).find (dir.child sibling) = .ok (loc ++ [sibling]) :=
      find_eq_ok_iff.2 ⟨h₁.locate_child hsibling hroom', by simp [endsInSlash_child dir hsibling]⟩
    rw [appendFile, hfind]
    dsimp only
    rw [lookup_put_self tree _ (by simp)]
    rfl
  -- It takes the place of what bore the name.
  have h₂ : ((tree.put (loc ++ [sibling]) (.file [])).put (loc ++ [sibling]) (.file bytes)).Leads dir loc :=
    h₁.keeps (keeps_put (by simp [lookup_put_self]) _)
  have hrename : ((tree.put (loc ++ [sibling]) (.file [])).put (loc ++ [sibling]) (.file bytes)).renameFile
      (dir.child sibling) (dir.child name) =
        .ok ((tree.erase (loc ++ [sibling])).put (loc ++ [name]) (.file bytes)) := by
    rw [renameFile, h₂.locate_child hsibling hroom', h₂.locate_child hname hroom]
    dsimp only
    rw [lookup_put_self _ _ (by simp), lookup_put_of_ne _ _ hlocation, lookup_put_of_ne _ _ hlocation]
    rw [erase_put, erase_put]
    cases hold : tree.lookup (loc ++ [name]) with
    | none => exact place_eq_ok_iff.2 ⟨hfits, rfl⟩
    | some entry =>
      cases entry with
      | directory => exact absurd hold hfile
      | file content => exact place_eq_ok_iff.2 ⟨hfits, rfl⟩
  simp only [writeAtomically, atomicSteps, htemporary, performUntilError, perform, hcreate, happend, hrename]

end FileTree

end EventCamera
