import EventCamera.Proofs.Files.Atomicity
import EventCamera.Recording.Recorder
/-!
# What a failure leaves in the file tree

On the way to a directory the directories above it are made, and they stay when it cannot be reached (`Paves`). An
atomic write that fails takes its temporary sibling away again (`writeAtomically_error`), and with it a file that had
stood there before. So all that `createRun` and `saveCapture` leave behind when they fail is directories, and at most
one file is missing (`paves_createRun`, `saveCapture_error`).
-/

namespace EventCamera

namespace FileTree

variable {tree mid next : FileTree} {p : Path} {loc : Location}

/-! ## Directories on the way -/

/-- The trees differ only in directories that were made where nothing was, on the way to the path. -/
structure Paves (p : Path) (tree next : FileTree) : Prop where
  keeps : tree.Keeps next
  entry : ∀ loc, next.lookup loc = tree.lookup loc ∨
    (tree.lookup loc = none ∧ ∃ q, p.Within q ∧ next.Leads q loc)

theorem Paves.refl (p : Path) (tree : FileTree) : Paves p tree tree := ⟨.refl tree, fun _ => .inl rfl⟩

theorem Paves.trans (h : Paves p tree mid) (h' : Paves p mid next) : Paves p tree next := by
  refine ⟨h.keeps.trans h'.keeps, fun loc => ?_⟩
  rcases h.entry loc with hsame | ⟨hnone, q, hq, hleads⟩
  · rcases h'.entry loc with hsame' | ⟨hnone', hnew⟩
    · exact .inl (hsame'.trans hsame)
    · exact .inr ⟨hsame ▸ hnone', hnew⟩
  · exact .inr ⟨hnone, q, hq, hleads.keeps h'.keeps⟩

/-- The way to a path on the way is a part of the way. -/
theorem Paves.of_within {q : Path} (h : Paves q tree next) (hq : p.Within q) : Paves p tree next := by
  refine ⟨h.keeps, fun loc => (h.entry loc).imp_right ?_⟩
  rintro ⟨hnone, r, hr, hleads⟩
  exact ⟨hnone, r, hq.trans hr, hleads⟩

theorem paves_createDirectory (h : tree.createDirectory p = .ok next) : Paves p tree next := by
  have hkeeps := keeps_createDirectory h
  obtain ⟨loc, hlocate, hnone, rfl⟩ := createDirectory_eq_ok h
  refine ⟨hkeeps, fun other => ?_⟩
  by_cases hother : other = loc
  · subst hother
    exact .inr ⟨hnone, p, .refl, hkeeps.locate hlocate, lookup_put_of_not_directory (by simp [hnone]) _⟩
  · exact .inl (lookup_put_of_ne tree .directory hother)

/-- What is made on the way to a directory, whether it is reached or not. -/
theorem paves_createDirectories (tree : FileTree) (p : Path) : Paves p tree (tree.createDirectories p).2 :=
  createDirectories_induction
    (fun _ _ _ hq hpaves hcreate => hpaves.trans ((paves_createDirectory hcreate).of_within hq)) (.refl p tree)

/-- On the way to a directory that is there nothing is created. -/
theorem createDirectories_of_isDirectory (h : tree.isDirectory p = true) :
    tree.createDirectories p = (.ok (), tree) := by
  obtain ⟨loc, hleads⟩ := isDirectory_iff.1 h
  have hcreate : tree.createDirectory p = .error .alreadyExists := by
    rw [createDirectory, hleads.locate]
    dsimp only
    rw [hleads.directory]
  unfold createDirectories createDirectoriesUpTo
  simp [hleads.isEmpty_text, hcreate, h]

/-! ## Files that were not written -/

/-- Where the trees differ, a file was there, and the path leads to where it was. -/
structure Loses (p : Path) (tree next : FileTree) : Prop where
  keeps : tree.Keeps next
  entry : ∀ loc, next.lookup loc = tree.lookup loc ∨
    ((∃ content, tree.lookup loc = some (.file content)) ∧ next.lookup loc = none ∧ next.locate p = .ok loc)

theorem Loses.refl (p : Path) (tree : FileTree) : Loses p tree tree := ⟨.refl tree, fun _ => .inl rfl⟩

/-- Nothing but a file, if anything, is taken away where the path leads. -/
theorem loses_erase (hlocate : tree.locate p = .ok loc) (h : tree.lookup loc ≠ some .directory) :
    Loses p tree (tree.erase loc) := by
  have hkeeps : tree.Keeps (tree.erase loc) := keeps_erase h
  refine ⟨hkeeps, fun other => ?_⟩
  by_cases hother : other = loc
  · subst hother
    have hgone := lookup_erase_of_not_directory h
    rcases hl : tree.lookup other with _ | _ | content
    · exact .inl hgone
    · exact absurd hl h
    · exact .inr ⟨⟨content, rfl⟩, hgone, hkeeps.locate hlocate⟩
  · exact .inl (lookup_erase_of_ne tree hother)

/-- A failed atomic write takes at most a file that stood in the place of its temporary sibling. -/
theorem writeAtomically_error {bytes : Bytes} {e : FileError} (h : tree.writeAtomically p bytes = (.error e, next)) :
    Loses (temporary p) tree next := by
  have hends := ends_writeAtomically tree p bytes
  rw [h] at hends
  cases hends with
  | refused _ _ => exact .refl _ _
  | cleared _ loc hlocate hdirectory => exact loses_erase hlocate hdirectory

end FileTree

/-! ## Runs and captures -/

variable {tree next : FileTree} {root : Path} {now : Instant} {e : StorageError}

theorem createRunFrom_error {tries k : Nat} (h : createRunFrom root now tree tries k = (.error e, next)) :
    next = tree := by
  induction tries generalizing k with
  | zero =>
    cases h
    rfl
  | succ tries ih =>
    unfold createRunFrom at h
    dsimp only at h
    split at h
    · cases h
    · exact ih h
    · cases h
      rfl

/-- Without a run directory there is only the way to its root. -/
theorem paves_createRun (h : createRun root now tree = (.error e, next)) : FileTree.Paves root tree next := by
  have hroot := FileTree.paves_createDirectories tree root
  unfold createRun at h
  split at h
  · next hcreate =>
    cases h
    rw [hcreate] at hroot
    exact hroot
  · next hcreate =>
    rw [hcreate] at hroot
    rw [createRunFrom_error h]
    exact hroot

/-- Where a capture is stored. -/
def captureTarget (root : Path) (taken : Instant) : Path := (capturesDirectory root).child (captureFileName taken)

/-- A capture that is not stored leaves the way to its directory, and takes at most a file that stood in the place of
its temporary sibling. -/
theorem saveCapture_error {frame : Frame} (h : saveCapture root frame now tree = (.error e, next)) :
    ∃ mid, FileTree.Paves (capturesDirectory root) tree mid ∧
      FileTree.Loses (FileTree.temporary (captureTarget root now)) mid next := by
  have hway := FileTree.paves_createDirectories tree (capturesDirectory root)
  unfold saveCapture at h
  dsimp only at h
  split at h
  · next hcreate =>
    cases h
    rw [hcreate] at hway
    exact ⟨_, hway, .refl _ _⟩
  · next hcreate =>
    rw [hcreate] at hway
    split at h
    · cases h
    · next hwrite =>
      cases h
      exact ⟨_, hway, FileTree.writeAtomically_error hwrite⟩

end EventCamera
