import EventCamera.Proofs.Files.Writing
/-!
# Atomic writes, step by step

An atomic write only ever puts files where no directories are, so paths go on leading where they led (`AsLeading`). It
ends in one of three ways (`ends_writeAtomically`), and cut off after any number of its steps, in however many pieces
the content is put down, it has left nothing but the temporary sibling or has ended (`passes_between`).

So if the path and its temporary sibling are those of two files, a write puts the whole content in place or changes
nothing there (`Separate.writeAtomically`), and nobody sees a part of it (`Separate.unseen`).
-/

namespace EventCamera

namespace FileTree

open EventCamera.Path

variable {tree next : FileTree} {p : Path} {loc : Location}

/-! ## Trees in which paths lead alike -/

/-- The directories are the same, so every path that leads somewhere leads to the same place. -/
def AsLeading (tree next : FileTree) : Prop := tree.Keeps next ∧ next.Keeps tree

theorem AsLeading.refl (tree : FileTree) : tree.AsLeading tree := ⟨.refl tree, .refl tree⟩

theorem AsLeading.trans {last : FileTree} (h : tree.AsLeading next) (h' : next.AsLeading last) :
    tree.AsLeading last := ⟨h.1.trans h'.1, h'.2.trans h.2⟩

theorem AsLeading.locate_iff (h : tree.AsLeading next) : next.locate p = .ok loc ↔ tree.locate p = .ok loc :=
  ⟨h.2.locate, h.1.locate⟩

/-- A file that is put where no directory is leads nowhere. -/
theorem asLeading_put_file (h : tree.lookup loc ≠ some .directory) (content : Bytes) :
    tree.AsLeading (tree.put loc (.file content)) := by
  refine ⟨keeps_put h _, fun other hd => ?_, rfl⟩
  by_cases hother : other = loc
  · subst hother
    rw [lookup_put_of_not_directory h] at hd
    cases hd
  · rwa [lookup_put_of_ne tree _ hother] at hd

theorem asLeading_erase (h : tree.lookup loc ≠ some .directory) : tree.AsLeading (tree.erase loc) := by
  refine ⟨keeps_erase h, fun other hd => ?_, rfl⟩
  by_cases hother : other = loc
  · subst hother
    rw [lookup_erase_of_not_directory h] at hd
    cases hd
  · rwa [lookup_erase_of_ne tree hother] at hd

/-- What a path leads to, if there is nothing else in its place. -/
theorem AsLeading.entry?_eq (h : tree.AsLeading next)
    (hsame : ∀ loc, tree.locate p = .ok loc → next.lookup loc = tree.lookup loc) : next.entry? p = tree.entry? p := by
  have hfind : ∀ loc, next.find p = .ok loc ↔ tree.find p = .ok loc := by
    intro loc
    rw [find_eq_ok_iff, find_eq_ok_iff, h.locate_iff]
    refine and_congr_right fun hl => ?_
    rw [hsame loc hl]
  unfold entry?
  cases hf : tree.find p with
  | ok loc =>
    rw [(hfind loc).2 hf]
    exact hsame loc (find_eq_ok_iff.1 hf).1
  | error e =>
    cases hf' : next.find p with
    | ok loc =>
      rw [(hfind loc).1 hf'] at hf
      cases hf
    | error e' => rfl

theorem entry?_of_locate (hl : tree.locate p = .ok loc) (hslash : p.endsInSlash = false) :
    tree.entry? p = tree.lookup loc := by
  have hfind : tree.find p = .ok loc := find_eq_ok_iff.2 ⟨hl, by simp [hslash]⟩
  unfold entry?
  rw [hfind]

/-! ## A write, whatever becomes of it -/

variable {content : Bytes} {old new : Path} {source : Location}

/-- A file that cannot be deleted is no file. -/
theorem not_file_of_removeFile {e : FileError} (h : tree.removeFile p = .error e) (content : Bytes) :
    tree.entry? p ≠ some (.file content) := by
  intro hfile
  unfold entry? at hfile
  rw [removeFile] at h
  split at hfile
  · next loc hfind =>
    rw [hfind] at h
    simp only [hfile] at h
    cases h
  · cases hfile

/-- A new file is moved in place of a file or of nothing. -/
theorem renameFile_put_file (hlocate : tree.locate old = .ok source) (hdirectory : tree.lookup source ≠ some .directory)
    (h : (tree.put source (.file content)).renameFile old new = .ok next) :
    ∃ target, tree.locate new = .ok target ∧ tree.lookup target ≠ some .directory ∧
      next = (tree.erase source).put target (.file content) := by
  have hleading := asLeading_put_file hdirectory content
  obtain ⟨source', target, content', hsource, hfile, htarget, hfree, rfl⟩ := renameFile_eq_ok h
  obtain rfl : source' = source := Except.ok.inj (hsource.symm.trans (hleading.locate_iff.2 hlocate))
  rw [lookup_put_of_not_directory hdirectory] at hfile
  cases hfile
  rw [erase_put]
  exact ⟨target, hleading.locate_iff.1 htarget, fun hd => hfree (hleading.1.directory target hd), rfl⟩

/-- How an atomic write ends: it could not begin, or it had to give up, or the content is in place. -/
inductive Ends (p : Path) (content : Bytes) (tree : FileTree) : Except FileError Unit × FileTree → Prop where
  | refused (e : FileError) (hfile : ∀ content, tree.entry? (temporary p) ≠ some (.file content)) :
      Ends p content tree (.error e, tree)
  | cleared (e : FileError) (loc : Location) (hlocate : tree.locate (temporary p) = .ok loc)
      (hdirectory : tree.lookup loc ≠ some .directory) : Ends p content tree (.error e, tree.erase loc)
  | replaced (sibling target : Location) (hsibling : tree.locate (temporary p) = .ok sibling)
      (hdirectory : tree.lookup sibling ≠ some .directory) (htarget : tree.locate p = .ok target)
      (hdirectory' : tree.lookup target ≠ some .directory) :
      Ends p content tree (.ok (), (tree.erase sibling).put target (.file content))

theorem ends_writeAtomically (tree : FileTree) (p : Path) (content : Bytes) :
    Ends p content tree (tree.writeAtomically p content) := by
  simp only [writeAtomically, atomicSteps, performUntilError, perform]
  cases hcreate : tree.createFile (temporary p) with
  | error e =>
    dsimp only
    cases hremove : tree.removeFile (temporary p) with
    | error e' => exact .refused e (not_file_of_removeFile hremove)
    | ok next =>
      obtain ⟨loc, content', hlocate, hfile, rfl⟩ := removeFile_eq_ok hremove
      exact .cleared e loc hlocate (by simp [hfile])
  | ok created =>
    obtain ⟨loc, hlocate, hslash, hdirectory, rfl⟩ := createFile_eq_ok hcreate
    have happend := appendFile_put_file hlocate hslash hdirectory [] content
    rw [List.nil_append] at happend
    simp only [happend]
    cases hrename : (tree.put loc (.file content)).renameFile (temporary p) p with
    | error e =>
      simp only [removeFile_put_file hlocate hslash hdirectory]
      exact .cleared e loc hlocate hdirectory
    | ok next =>
      obtain ⟨target, htarget, hfree, rfl⟩ := renameFile_put_file hlocate hdirectory hrename
      exact .replaced loc target hlocate hdirectory htarget hfree

/-! ## A write on its way -/

/-- The steps of an atomic write that puts the content down piece by piece. -/
def piecewise (p : Path) (pieces : List Bytes) : List FileStep :=
  .create (temporary p) :: pieces.map (.append (temporary p)) ++ [.rename (temporary p) p]

theorem performUntilError_appends (hlocate : tree.locate p = .ok loc) (hslash : p.endsInSlash = false)
    (hdirectory : tree.lookup loc ≠ some .directory) (pieces : List Bytes) (written : Bytes) (steps : List FileStep) :
    (tree.put loc (.file written)).performUntilError (pieces.map (.append p) ++ steps) =
      (tree.put loc (.file (written ++ pieces.flatten))).performUntilError steps := by
  induction pieces generalizing written with
  | nil => simp
  | cons piece rest ih =>
    rw [List.map_cons, List.cons_append, performUntilError, perform,
      appendFile_put_file hlocate hslash hdirectory written piece]
    dsimp only
    rw [ih, List.append_assoc, List.flatten_cons]

/-- In how many pieces the content is put down makes no difference in the end. -/
theorem performUntilError_piecewise (tree : FileTree) (p : Path) (pieces : List Bytes) :
    tree.performUntilError (piecewise p pieces) = tree.performUntilError (atomicSteps p pieces.flatten) := by
  have hone : atomicSteps p pieces.flatten = piecewise p [pieces.flatten] := rfl
  rw [hone, piecewise, piecewise, List.cons_append, List.cons_append, performUntilError, performUntilError]
  split
  · next created hcreate =>
    obtain ⟨loc, hlocate, hslash, hdirectory, rfl⟩ := createFile_eq_ok hcreate
    rw [performUntilError_appends hlocate hslash hdirectory, performUntilError_appends hlocate hslash hdirectory]
    simp
  · rfl

/-- What an atomic write passes through. -/
inductive Passes (p : Path) (content : Bytes) (tree : FileTree) : FileTree → Prop where
  | untouched : Passes p content tree tree
  | begun (loc : Location) (hlocate : tree.locate (temporary p) = .ok loc)
      (hdirectory : tree.lookup loc ≠ some .directory) (written : Bytes) :
      Passes p content tree (tree.put loc (.file written))
  | ended {result : Except FileError Unit × FileTree} (h : Ends p content tree result) :
      Passes p content tree result.2

/-- After any number of steps, one of which may have failed. -/
theorem passes_between (tree : FileTree) (p : Path) (pieces : List Bytes) (k : Nat) :
    Passes p pieces.flatten tree (tree.performUntilError ((piecewise p pieces).take k)).2 := by
  cases k with
  | zero => exact .untouched
  | succ k =>
    rw [piecewise, List.cons_append, List.take_succ_cons, performUntilError]
    split
    · next created hcreate =>
      obtain ⟨loc, hlocate, hslash, hdirectory, rfl⟩ := createFile_eq_ok hcreate
      rw [List.take_append, ← List.map_take, performUntilError_appends hlocate hslash hdirectory, List.nil_append,
        List.length_map]
      cases hleft : k - pieces.length with
      | zero => exact .begun loc hlocate hdirectory _
      | succ left =>
        -- All pieces are down, and the file is moved into place.
        rw [List.take_of_length_le (by omega), List.take_succ_cons, List.take_nil, performUntilError]
        split
        · next renamed hrename =>
          obtain ⟨target, htarget, hfree, rfl⟩ := renameFile_put_file hlocate hdirectory hrename
          exact .ended (.replaced loc target hlocate hdirectory htarget hfree)
        · exact .begun loc hlocate hdirectory _
    · exact .untouched

/-! ## What can be seen of a write -/

/-- The trees differ at most where the path and its temporary sibling lead. -/
structure Besides (p : Path) (tree next : FileTree) : Prop where
  leading : tree.AsLeading next
  lookup : ∀ loc, tree.locate p ≠ .ok loc → tree.locate (temporary p) ≠ .ok loc → next.lookup loc = tree.lookup loc
  entry : ∀ q, (∀ loc, tree.locate q = .ok loc → tree.locate p ≠ .ok loc ∧ tree.locate (temporary p) ≠ .ok loc) →
    next.entry? q = tree.entry? q

/-- Where paths lead alike, what they lead to can be told from the locations. -/
theorem besides_of_lookup (hleading : tree.AsLeading next) (hlookup : ∀ loc, tree.locate p ≠ .ok loc →
    tree.locate (temporary p) ≠ .ok loc → next.lookup loc = tree.lookup loc) : Besides p tree next :=
  ⟨hleading, hlookup, fun _ hq => hleading.entry?_eq fun loc hloc => hlookup loc (hq loc hloc).1 (hq loc hloc).2⟩

theorem ne_of_locate_ne {other : Location} (h : tree.locate p = .ok loc) (hne : tree.locate p ≠ .ok other) :
    other ≠ loc := by
  rintro rfl
  exact hne h

theorem Ends.besides {result : Except FileError Unit × FileTree} (h : Ends p content tree result) :
    Besides p tree result.2 := by
  cases h with
  | refused e _ => exact besides_of_lookup (.refl tree) fun _ _ _ => rfl
  | cleared e loc hlocate hdirectory =>
    refine besides_of_lookup (asLeading_erase hdirectory) fun other _ hne => ?_
    exact lookup_erase_of_ne tree (ne_of_locate_ne hlocate hne)
  | replaced sibling target hsibling hdirectory htarget hdirectory' =>
    have hfree : (tree.erase sibling).lookup target ≠ some .directory := not_directory_erase hdirectory'
    refine besides_of_lookup ((asLeading_erase hdirectory).trans (asLeading_put_file hfree content)) ?_
    intro other hne hne'
    rw [lookup_put_of_ne _ _ (ne_of_locate_ne htarget hne), lookup_erase_of_ne _ (ne_of_locate_ne hsibling hne')]

theorem Passes.besides (h : Passes p content tree next) : Besides p tree next := by
  cases h with
  | untouched => exact besides_of_lookup (.refl tree) fun _ _ _ => rfl
  | begun loc hlocate hdirectory written =>
    refine besides_of_lookup (asLeading_put_file hdirectory written) fun other _ hne => ?_
    exact lookup_put_of_ne tree _ (ne_of_locate_ne hlocate hne)
  | ended h => exact h.besides

/-- An entry is seen to change only where the path leads. -/
theorem AsLeading.entry?_of_change (h : tree.AsLeading next) (hlocate : tree.locate p = .ok loc)
    (hchange : ∀ other, other ≠ loc → next.lookup other = tree.lookup other) {q : Path}
    (hq : tree.locate q ≠ .ok loc) : next.entry? q = tree.entry? q := by
  refine h.entry?_eq fun other hother => hchange other ?_
  rintro rfl
  exact hq hother

/-- The path and its temporary sibling are those of two files. -/
structure Separate (tree : FileTree) (p : Path) : Prop where
  slash : p.endsInSlash = false
  slash' : (temporary p).endsInSlash = false
  distinct : ∀ loc, tree.locate p = .ok loc → tree.locate (temporary p) ≠ .ok loc

/-- What was written is there, and the temporary sibling is not. -/
structure Written (p : Path) (content : Bytes) (tree next : FileTree) : Prop extends Besides p tree next where
  target : next.entry? p = some (.file content)
  sibling : next.entry? (temporary p) = none

/-- What was there still is, and no file is left in the place of the temporary sibling. -/
structure NotWritten (p : Path) (tree next : FileTree) : Prop extends Besides p tree next where
  target : next.entry? p = tree.entry? p
  sibling : ∀ content, next.entry? (temporary p) ≠ some (.file content)

theorem Separate.written (hp : tree.Separate p) (h : Ends p content tree (.ok (), next)) :
    Written p content tree next := by
  have hbesides := h.besides
  cases h with
  | replaced sibling target hsibling hdirectory htarget hdirectory' =>
    have hne : sibling ≠ target := by
      rintro rfl
      exact hp.distinct sibling htarget hsibling
    refine ⟨hbesides, ?_, ?_⟩
    · rw [entry?_of_locate (hbesides.leading.locate_iff.2 htarget) hp.slash, lookup_put_self _ _ (ne_root hdirectory')]
    · rw [entry?_of_locate (hbesides.leading.locate_iff.2 hsibling) hp.slash', lookup_put_of_ne _ _ hne,
        lookup_erase_of_not_directory hdirectory]

theorem Separate.notWritten (hp : tree.Separate p) {e : FileError} (h : Ends p content tree (.error e, next)) :
    NotWritten p tree next := by
  have hbesides := h.besides
  cases h with
  | refused _ hfile => exact ⟨hbesides, rfl, hfile⟩
  | cleared _ loc hlocate hdirectory =>
    refine ⟨hbesides, ?_, fun content => ?_⟩
    · exact hbesides.leading.entry?_of_change hlocate (fun other hne => lookup_erase_of_ne tree hne)
        fun hl => hp.distinct loc hl hlocate
    · rw [entry?_of_locate (hbesides.leading.locate_iff.2 hlocate) hp.slash', lookup_erase_of_not_directory hdirectory]
      nofun

/-- At the path there is the old entry or the whole new content. -/
def OldOrNew (p : Path) (content : Bytes) (tree next : FileTree) : Prop :=
  next.entry? p = tree.entry? p ∨ next.entry? p = some (.file content)

theorem Passes.target (h : Passes p content tree next) (hp : tree.Separate p) : OldOrNew p content tree next := by
  cases h with
  | untouched => exact .inl rfl
  | begun loc hlocate hdirectory written =>
    exact .inl ((asLeading_put_file hdirectory written).entry?_of_change hlocate
      (fun other hne => lookup_put_of_ne tree _ hne) fun hl => hp.distinct loc hl hlocate)
  | @ended result h =>
    obtain ⟨_ | _, next⟩ := result
    · exact .inl (hp.notWritten h).target
    · exact .inr (hp.written h).target

/-- The write is seen by nobody before it is complete, in however many pieces the content is put down. -/
def Unseen (p : Path) (content : Bytes) (tree : FileTree) : Prop :=
  ∀ pieces : List Bytes, pieces.flatten = content →
    tree.performUntilError (piecewise p pieces) = tree.performUntilError (atomicSteps p content) ∧
    ∀ k, let next := (tree.performUntilError ((piecewise p pieces).take k)).2
      Besides p tree next ∧ OldOrNew p content tree next

theorem Separate.unseen (hp : tree.Separate p) (content : Bytes) : Unseen p content tree := by
  rintro pieces rfl
  refine ⟨performUntilError_piecewise tree p pieces, fun k => ?_⟩
  have hpasses := passes_between tree p pieces k
  exact ⟨hpasses.besides, hpasses.target hp⟩

/-- A write succeeds and has put the content in place, or fails and has changed nothing of it. -/
theorem Separate.writeAtomically (hp : tree.Separate p) (content : Bytes) :
    (∃ next, tree.writeAtomically p content = (.ok (), next) ∧ Written p content tree next) ∨
      ∃ e next, tree.writeAtomically p content = (.error e, next) ∧ NotWritten p tree next := by
  have hends := ends_writeAtomically tree p content
  rcases h : tree.writeAtomically p content with ⟨e | _, next⟩
  · rw [h] at hends
    exact .inr ⟨e, next, rfl, hp.notWritten hends⟩
  · rw [h] at hends
    exact .inl ⟨next, rfl, hp.written hends⟩

end FileTree

end EventCamera
