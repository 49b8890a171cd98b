import EventCamera.Proofs.Files.Reached
/-!
# Trees without loose entries

In a grounded tree every entry lies in a directory (`Grounded`), so below a place where no directory is there is nothing
(`Grounded.lookup_append`). The empty tree is grounded, and the operations put entries only into directories
(`Grounded.of_locate`) and take away only what nothing lies in. So every tree that is reached from a grounded one is
grounded (`Reaches.grounded`).
-/

namespace EventCamera

namespace Path

variable {p : Path}

/-- A relative path without a name is made of dots and slashes, and begins with a dot. -/
theorem endsInDot_of_names (hempty : p.text.isEmpty = false) (habs : p.isAbsolute = false) (h : p.names = []) :
    p.endsInDot = true := by
  have hdots : ∀ s ∈ (segments p.text.toList).filter (· != []), s = ['.'] := by
    intro s hs
    rw [names, List.map_eq_nil_iff, List.filter_eq_nil_iff] at h
    obtain ⟨hmem, hne⟩ := List.mem_filter.1 hs
    simpa [bne_iff_ne.1 hne] using h s hmem
  have hsome : (segments p.text.toList).filter (· != []) ≠ [] := by
    rcases hc : p.text.toList with _ | ⟨c, cs⟩
    · rw [String.isEmpty_eq_false_iff] at hempty
      exact absurd (String.toList_eq_nil_iff.1 hc) hempty
    · have hslash : c ≠ '/' := by
        rintro rfl
        simp [isAbsolute, hc] at habs
      rw [segments, if_neg hslash]
      split <;> simp
  have hlast := hdots _ (List.getLast_mem hsome)
  rw [endsInDot, lastPiece, List.getLastD_eq_getLast?, List.getLast?_eq_some_getLast hsome, Option.getD_some, hlast]
  rfl

end Path

namespace FileTree

open EventCamera.Path

variable {tree next : FileTree} {p : Path} {loc : Location}

/-- Every entry lies in a directory. -/
def Grounded (tree : FileTree) : Prop :=
  ∀ loc name, tree.lookup (loc ++ [name]) ≠ none → tree.lookup loc = some .directory

theorem grounded_empty : FileTree.empty.Grounded := by
  intro loc name h
  cases loc <;> exact absurd rfl h

/-- Where no directory is, nothing lies below. -/
theorem Grounded.lookup_append (h : tree.Grounded) (hloc : tree.lookup loc ≠ some .directory) {rest : Location}
    (hrest : rest ≠ []) : tree.lookup (loc ++ rest) = none := by
  induction rest using List.reverseRecOn with
  | nil => exact absurd rfl hrest
  | append_singleton init name ih =>
    by_contra hne
    rw [← List.append_assoc] at hne
    have hparent := h _ _ hne
    by_cases hinit : init = []
    · rw [hinit, List.append_nil] at hparent
      exact hloc hparent
    · rw [ih hinit] at hparent
      cases hparent

/-- A path leads to a directory or into one. -/
theorem Grounded.of_locate (h : tree.Grounded) (hlocate : tree.locate p = .ok loc) :
    tree.lookup loc = some .directory ∨
      ∃ parent name, loc = parent ++ [name] ∧ tree.lookup parent = some .directory := by
  obtain ⟨-, hempty, -, hfollow, hdot⟩ := locate_eq_ok_iff.1 hlocate
  rcases List.eq_nil_or_concat p.names with hnames | ⟨init, name, hnames⟩
  · rw [hnames, follow] at hfollow
    cases hfollow
    cases habs : p.isAbsolute with
    | true => simp [base, habs]
    | false => exact .inl (hdot (endsInDot_of_names hempty habs hnames))
  · rw [hnames, List.concat_eq_append, follow_concat_iff] at hfollow
    obtain ⟨parent, -, hdirectory, rfl⟩ := hfollow
    split
    · -- The way leads back, to the root or to a directory that something lies in.
      rcases List.eq_nil_or_concat parent with rfl | ⟨above, last, rfl⟩
      · exact .inl rfl
      · rw [List.concat_eq_append] at hdirectory ⊢
        rw [List.dropLast_concat]
        exact .inl (h above last (by simp [hdirectory]))
    · exact .inr ⟨parent, name, rfl, hdirectory⟩

theorem Grounded.put (h : tree.Grounded) (hlocate : tree.locate p = .ok loc)
    (hdirectory : tree.lookup loc ≠ some .directory) (entry : Entry) : (tree.put loc entry).Grounded := by
  have hkeeps : tree.Keeps (tree.put loc entry) := keeps_put hdirectory entry
  intro other name hother
  refine hkeeps.directory other ?_
  by_cases heq : other ++ [name] = loc
  · obtain ⟨parent, name', hloc, hparent⟩ := (h.of_locate hlocate).resolve_left hdirectory
    rw [hloc] at heq
    rw [(List.append_inj' heq rfl).1]
    exact hparent
  · rw [lookup_put_of_ne tree entry heq] at hother
    exact h other name hother

theorem Grounded.erase (h : tree.Grounded) (hdirectory : tree.lookup loc ≠ some .directory) :
    (tree.erase loc).Grounded := by
  intro other name hother
  refine (keeps_erase hdirectory).directory other ?_
  by_cases heq : other ++ [name] = loc
  · rw [heq, lookup_erase_of_not_directory hdirectory] at hother
    exact absurd rfl hother
  · rw [lookup_erase_of_ne tree heq] at hother
    exact h other name hother

/-! ## Single operations -/

theorem Grounded.createDirectory (h : tree.Grounded) (hcreate : tree.createDirectory p = .ok next) :
    next.Grounded := by
  obtain ⟨loc, hlocate, hnone, rfl⟩ := createDirectory_eq_ok hcreate
  exact h.put hlocate (by simp [hnone]) .directory

theorem Grounded.perform (h : tree.Grounded) {step : FileStep} (hstep : tree.perform step = .ok next) :
    next.Grounded := by
  cases step with
  | create p =>
    obtain ⟨loc, hlocate, -, hdirectory, rfl⟩ := createFile_eq_ok hstep
    exact h.put hlocate hdirectory _
  | append p bytes =>
    obtain ⟨loc, content, hlocate, hfile, rfl⟩ := appendFile_eq_ok hstep
    exact h.put hlocate (by simp [hfile]) _
  | rename old new =>
    obtain ⟨source, target, content, -, hfile, hlocate, hdirectory, rfl⟩ := renameFile_eq_ok hstep
    have hsource : tree.lookup source ≠ some .directory := by simp [hfile]
    exact (h.erase hsource).put ((keeps_erase hsource).locate hlocate) (not_directory_erase hdirectory) _
  | remove p =>
    obtain ⟨loc, content, -, hfile, rfl⟩ := removeFile_eq_ok hstep
    exact h.erase (by simp [hfile])

theorem Next.grounded (h : tree.Next next) (hg : tree.Grounded) : next.Grounded := by
  cases h with
  | made h => exact hg.createDirectory h
  | performed step h => exact hg.perform h

/-- From a grounded tree only grounded trees are reached. -/
theorem Reaches.grounded (h : tree.Reaches next) (hg : tree.Grounded) : next.Grounded := by
  induction h with
  | refl => exact hg
  | tail _ hnext ih => exact hnext.grounded ih

theorem Grounded.createDirectories (h : tree.Grounded) (p : Path) : (tree.createDirectories p).2.Grounded :=
  (tree.reaches_createDirectories p).grounded h

end FileTree

end EventCamera
