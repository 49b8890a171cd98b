import EventCamera.Proofs.Files.Directory
/-!
# Files that are written whole

Whether a file can be written at a path does not depend on what is to be in it, and what was written is read there, with
and without the directories on the way (`writeWithParents_cases`).
-/

namespace EventCamera

namespace FileTree

variable {tree next : FileTree} {p : Path} {loc : Location}

/-- A file that was put in place of no directory is found by the path that leads there. -/
theorem find_put_file (hlocate : tree.locate p = .ok loc) (hslash : p.endsInSlash = false)
    (hdirectory : tree.lookup loc ≠ some .directory) (content : Bytes) :
    (tree.put loc (.file content)).find p = .ok loc := by
  have hkeeps : tree.Keeps (tree.put loc (.file content)) := keeps_put hdirectory _
  exact find_eq_ok_iff.2 ⟨hkeeps.locate hlocate, by simp [hslash]⟩

theorem put_put (tree : FileTree) (loc : Location) (entry entry' : Entry) :
    (tree.put loc entry).put loc entry' = tree.put loc entry' := by
  simp [put]

theorem contentOf_put_file (hlocate : tree.locate p = .ok loc) (hslash : p.endsInSlash = false)
    (hdirectory : tree.lookup loc ≠ some .directory) (content : Bytes) :
    (tree.put loc (.file content)).contentOf p = .ok content := by
  rw [contentOf, find_put_file hlocate hslash hdirectory]
  dsimp only
  rw [lookup_put_of_not_directory hdirectory]

theorem appendFile_put_file (hlocate : tree.locate p = .ok loc) (hslash : p.endsInSlash = false)
    (hdirectory : tree.lookup loc ≠ some .directory) (content bytes : Bytes) :
    (tree.put loc (.file content)).appendFile p bytes = .ok (tree.put loc (.file (content ++ bytes))) := by
  rw [appendFile, find_put_file hlocate hslash hdirectory]
  dsimp only
  rw [lookup_put_of_not_directory hdirectory]
  dsimp only
  rw [put_put]

theorem removeFile_put_file (hlocate : tree.locate p = .ok loc) (hslash : p.endsInSlash = false)
    (hdirectory : tree.lookup loc ≠ some .directory) (content : Bytes) :
    (tree.put loc (.file content)).removeFile p = .ok (tree.erase loc) := by
  rw [removeFile, find_put_file hlocate hslash hdirectory]
  dsimp only
  rw [lookup_put_of_not_directory hdirectory]
  dsimp only
  rw [erase_put]

/-- A file is written or not, whatever is to be in it. -/
theorem writeFile_cases (tree : FileTree) (p : Path) :
    (∃ e, ∀ bytes, tree.writeFile p bytes = (.error e, tree)) ∨
      ∀ bytes, ∃ next, tree.writeFile p bytes = (.ok (), next) ∧ next.contentOf p = .ok bytes := by
  cases hc : tree.createFile p with
  | error e => exact .inl ⟨e, fun bytes => by rw [writeFile, hc]⟩
  | ok created =>
    obtain ⟨loc, hlocate, hslash, hdirectory, rfl⟩ := createFile_eq_ok hc
    refine .inr fun bytes => ⟨tree.put loc (.file bytes), ?_, contentOf_put_file hlocate hslash hdirectory bytes⟩
    rw [writeFile, hc]
    dsimp only
    rw [appendFile_put_file hlocate hslash hdirectory, List.nil_append]

theorem writeWithParents_cases (tree : FileTree) (p : Path) :
    (∃ e next, ∀ bytes, tree.writeWithParents p bytes = (.error e, next)) ∨
      ∀ bytes, ∃ next, tree.writeWithParents p bytes = (.ok (), next) ∧ next.contentOf p = .ok bytes := by
  cases hp : p.parent? with
  | none =>
    simp only [writeWithParents, hp]
    exact (writeFile_cases tree p).imp_left fun ⟨e, he⟩ => ⟨e, tree, he⟩
  | some parent =>
    rcases hd : tree.createDirectories parent with ⟨e | _, mid⟩
    · exact .inl ⟨e, mid, fun bytes => by simp only [writeWithParents, hp, hd]⟩
    · simp only [writeWithParents, hp, hd]
      exact (writeFile_cases mid p).imp_left fun ⟨e, he⟩ => ⟨e, mid, he⟩

/-- Some file can be written at the path, after the directories that lead to it. -/
def Admits (tree : FileTree) (p : Path) : Prop := ∃ bytes, (tree.writeWithParents p bytes).1 = .ok ()

theorem Admits.write (h : tree.Admits p) (bytes : Bytes) :
    ∃ next, tree.writeWithParents p bytes = (.ok (), next) ∧ next.contentOf p = .ok bytes := by
  obtain ⟨other, hother⟩ := h
  rcases writeWithParents_cases tree p with ⟨e, next, he⟩ | hok
  · rw [he other] at hother
    cases hother
  · exact hok bytes

end FileTree

end EventCamera
