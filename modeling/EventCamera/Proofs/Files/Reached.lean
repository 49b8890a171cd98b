import EventCamera.Proofs.Files.Directory
/-!
# Trees that operations reach

All that is done to a file tree amounts to single operations that succeed: a directory is made, or a file is created,
appended to, renamed or removed (`Reaches`). What each of these keeps is kept by every composed operation, whether it
succeeds or not: no directory is taken away (`Reaches.keeps`).
-/

namespace EventCamera

namespace FileTree

variable {tree next : FileTree}

/-- One operation succeeds. -/
inductive Next (tree next : FileTree) : Prop
  | made {p : Path} (h : tree.createDirectory p = .ok next) : Next tree next
  | performed (step : FileStep) (h : tree.perform step = .ok next) : Next tree next

/-- Some number of operations succeed one after the other. -/
abbrev Reaches : FileTree → FileTree → Prop := Relation.ReflTransGen Next

theorem Next.keeps (h : tree.Next next) : tree.Keeps next := by
  cases h with
  | made h => exact keeps_createDirectory h
  | performed step h => exact keeps_perform h

theorem Reaches.keeps (h : tree.Reaches next) : tree.Keeps next := by
  induction h with
  | refl => exact .refl tree
  | tail _ hnext ih => exact ih.trans hnext.keeps

theorem Reaches.of_result {α : Type} {result : α × FileTree} {answer : α} (h : tree.Reaches result.2)
    (heq : result = (answer, next)) : tree.Reaches next := by
  rw [heq] at h
  exact h

/-! ## Composed operations -/

theorem reaches_createDirectories (tree : FileTree) (p : Path) : tree.Reaches (tree.createDirectories p).2 :=
  createDirectories_induction (fun _ _ _ _ hreach hcreate => hreach.tail (.made hcreate)) .refl

/-- No directory is lost on the way to a new one. -/
theorem keeps_createDirectories (tree : FileTree) (p : Path) : tree.Keeps (tree.createDirectories p).2 :=
  (tree.reaches_createDirectories p).keeps

theorem reaches_performUntilError (tree : FileTree) (steps : List FileStep) :
    tree.Reaches (tree.performUntilError steps).2 := by
  induction steps generalizing tree with
  | nil => exact .refl
  | cons step rest ih =>
    rw [performUntilError]
    split
    · next hstep => exact .head (.performed step hstep) (ih _)
    · exact .refl

theorem reaches_writeAtomically (tree : FileTree) (p : Path) (bytes : Bytes) :
    tree.Reaches (tree.writeAtomically p bytes).2 := by
  have hsteps := tree.reaches_performUntilError (atomicSteps p bytes)
  unfold writeAtomically
  split
  · next hwrite => exact hsteps.of_result hwrite
  · next hwrite =>
    split
    · next hremove => exact (hsteps.of_result hwrite).tail (.performed _ hremove)
    · exact hsteps.of_result hwrite

/-- Atomic writing takes no directory away, whether it succeeds or not. -/
theorem keeps_writeAtomically (tree : FileTree) (p : Path) (bytes : Bytes) :
    tree.Keeps (tree.writeAtomically p bytes).2 :=
  (tree.reaches_writeAtomically p bytes).keeps

theorem reaches_writeFile (tree : FileTree) (p : Path) (bytes : Bytes) : tree.Reaches (tree.writeFile p bytes).2 := by
  unfold writeFile
  split
  · exact .refl
  · next created hcreate =>
    have hcreated : tree.Reaches created := .single (.performed (.create p) hcreate)
    split
    · exact hcreated
    · next happend => exact hcreated.tail (.performed (.append p bytes) happend)

theorem reaches_writeWithParents (tree : FileTree) (p : Path) (bytes : Bytes) :
    tree.Reaches (tree.writeWithParents p bytes).2 := by
  unfold writeWithParents
  split
  · exact tree.reaches_writeFile p bytes
  · next parent _ =>
    have hway := tree.reaches_createDirectories parent
    split
    · next hcreate => exact hway.of_result hcreate
    · next hcreate => exact (hway.of_result hcreate).trans (reaches_writeFile _ p bytes)

end FileTree

end EventCamera
