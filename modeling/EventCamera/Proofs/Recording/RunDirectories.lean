import EventCamera.Proofs.Files.Reached
import EventCamera.Recording.Recorder
/-!
# Run directories

Each recording gets a directory of its own: `createRun` makes one where there was no directory (`createRun_new`), and
as no operation takes directories away, the run directories made so far stay apart (`Apart`).
-/

namespace EventCamera

variable {tree next : FileTree} {root dir : Path} {began : Instant}

theorem createRunFrom_new {tries k : Nat} (h : createRunFrom root began tree tries k = (.ok dir, next)) :
    tree.Keeps next ∧ ∃ loc, tree.lookup loc ≠ some .directory ∧ next.Leads dir loc := by
  induction tries generalizing k with
  | zero => cases h
  | succ tries ih =>
    unfold createRunFrom at h
    dsimp only at h
    split at h
    · next hcreate =>
      cases h
      obtain ⟨loc, hnone, hleads⟩ := FileTree.leads_createDirectory hcreate
      exact ⟨FileTree.keeps_createDirectory hcreate, loc, by simp [hnone], hleads⟩
    · exact ih h
    · cases h

/-- A run directory is made where there was none. -/
theorem createRun_new (h : createRun root began tree = (.ok dir, next)) :
    tree.Keeps next ∧ ∃ loc, tree.lookup loc ≠ some .directory ∧ next.Leads dir loc := by
  have hroot := FileTree.keeps_createDirectories tree root
  unfold createRun at h
  split at h
  · cases h
  · next hcreate =>
    rw [hcreate] at hroot
    obtain ⟨hkeeps, loc, hnew, hleads⟩ := createRunFrom_new h
    exact ⟨hroot.trans hkeeps, loc, fun hd => hnew (hroot.directory loc hd), hleads⟩

theorem reaches_createRunFrom (root : Path) (began : Instant) (tree : FileTree) (tries k : Nat) :
    tree.Reaches (createRunFrom root began tree tries k).2 := by
  induction tries generalizing k with
  | zero => exact .refl
  | succ tries ih =>
    unfold createRunFrom
    dsimp only
    split
    · next hcreate => exact .single (.made hcreate)
    · exact ih (k + 1)
    · exact .refl

theorem reaches_createRun (root : Path) (began : Instant) (tree : FileTree) :
    tree.Reaches (createRun root began tree).2 := by
  have hway := tree.reaches_createDirectories root
  unfold createRun
  split
  · next hcreate => exact hway.of_result hcreate
  · next hcreate => exact (hway.of_result hcreate).trans (reaches_createRunFrom root began _ _ 0)

theorem keeps_createRun (root : Path) (began : Instant) (tree : FileTree) :
    tree.Keeps (createRun root began tree).2 :=
  (reaches_createRun root began tree).keeps

namespace FileTree

/-- The paths lead to directories, no two to the same one. -/
structure Apart (tree : FileTree) (dirs : List Path) : Prop where
  leads : ∀ dir ∈ dirs, ∃ loc, tree.Leads dir loc
  distinct : dirs.Pairwise fun dir dir' => ∀ loc, tree.Leads dir loc → ¬tree.Leads dir' loc

variable {dirs : List Path}

theorem apart_nil (tree : FileTree) : tree.Apart [] := ⟨nofun, .nil⟩

theorem Leads.location_eq {loc loc' : Location} (h : tree.Leads dir loc) (h' : tree.Leads dir loc') : loc = loc' := by
  have heq := h.locate.symm.trans h'.locate
  cases heq
  rfl

/-- Directories stay apart, whatever becomes of files. -/
theorem Apart.keeps (h : tree.Apart dirs) (hk : tree.Keeps next) : next.Apart dirs := by
  refine ⟨?_, h.distinct.imp_of_mem ?_⟩
  · intro dir hdir
    obtain ⟨loc, hleads⟩ := h.leads dir hdir
    exact ⟨loc, hleads.keeps hk⟩
  · intro dir dir' hdir hdir' hne loc hleads hleads'
    -- Where the paths lead now they led before.
    obtain ⟨loc₁, h₁⟩ := h.leads dir hdir
    obtain ⟨loc₂, h₂⟩ := h.leads dir' hdir'
    have heq₁ := (h₁.keeps hk).location_eq hleads
    have heq₂ := (h₂.keeps hk).location_eq hleads'
    exact hne loc (heq₁ ▸ h₁) (heq₂ ▸ h₂)

/-- A new run directory is none of those before it. -/
theorem Apart.createRun (h : tree.Apart dirs) (hrun : createRun root began tree = (.ok dir, next)) :
    next.Apart (dirs ++ [dir]) := by
  obtain ⟨hk, loc, hnew, hleads⟩ := createRun_new hrun
  obtain ⟨hled, hdistinct⟩ := h.keeps hk
  refine ⟨?_, List.pairwise_append.2 ⟨hdistinct, List.pairwise_singleton _ _, ?_⟩⟩
  · intro dir' hdir'
    rcases List.mem_append.1 hdir' with hdir' | hdir'
    · exact hled dir' hdir'
    · rw [List.mem_singleton.1 hdir']
      exact ⟨loc, hleads⟩
  · intro dir' hdir' dir'' hdir'' loc' hleads' hleads''
    rw [List.mem_singleton.1 hdir''] at hleads''
    obtain ⟨loc₁, h₁⟩ := h.leads dir' hdir'
    have hsame := hleads.location_eq hleads''
    have hthere := (h₁.keeps hk).location_eq hleads'
    subst hsame hthere
    exact hnew h₁.directory

end FileTree

end EventCamera
