import EventCamera.Proofs.Files.Failures
import EventCamera.Proofs.Files.Grounded
import EventCamera.Proofs.Recording.Filing
import EventCamera.Proofs.Recording.Names
import EventCamera.Proofs.Recording.RunDirectories
/-!
# Every run directory is fresh

A name that is taken is an entry of its own, so there is a free one before there are more names than entries
(`exists_firstFree`), and the search ends there in one of three ways (`runOutcome_createRun`). A run that begins has got a
new and empty directory under the first free name (`RunOutcome.begun_of_ok`). No two runs get the same directory,
whatever is created between the calls (`RunHistory.apart`).

`run_directories_fresh` puts this together. Names are free or taken once there is a way to the root, because a directory
on the way may take one itself (`taken_on_the_way`).
-/

namespace EventCamera

namespace FileTree

open EventCamera.Path

variable {tree next : FileTree} {p dir : Path} {loc : Location}

/-! ## Directories that are there already -/

theorem absence_ne_alreadyExists (loc : Location) : absence loc ≠ .alreadyExists := by
  unfold absence
  split <;> nofun

theorem follow_ne_alreadyExists (tree : FileTree) (start : Location) (names : List String) :
    tree.follow start names ≠ .error .alreadyExists := by
  induction names generalizing start with
  | nil =>
    intro h
    cases h
  | cons name rest ih =>
    rw [follow]
    rcases tree.lookup start with _ | _ | _
    · exact fun h => absence_ne_alreadyExists start (Except.error.inj h)
    · exact ih _
    · intro h
      cases h

theorem confirm_ne_alreadyExists (tree : FileTree) (loc : Location) (needsDirectory : Bool) :
    tree.confirm loc needsDirectory ≠ .error .alreadyExists := by
  unfold confirm
  split
  · split
    · exact fun h => absence_ne_alreadyExists loc (Except.error.inj h)
    · nofun
    · nofun
  · nofun

theorem locate_ne_alreadyExists (tree : FileTree) (p : Path) : tree.locate p ≠ .error .alreadyExists := by
  unfold locate
  split
  · nofun
  · split
    · nofun
    · split
      · nofun
      · split
        · next hfollow =>
          intro h
          cases h
          exact follow_ne_alreadyExists _ _ _ hfollow
        · exact confirm_ne_alreadyExists _ _ _

theorem createDirectory_eq_alreadyExists_iff :
    tree.createDirectory p = .error .alreadyExists ↔ ∃ loc, tree.locate p = .ok loc ∧ tree.lookup loc ≠ none := by
  unfold createDirectory
  split
  · next e hlocate =>
    rw [hlocate]
    constructor
    · intro h
      cases h
      exact absurd hlocate (locate_ne_alreadyExists tree p)
    · nofun
  · next loc hlocate =>
    rw [hlocate]
    split
    · next hsome => simp [hsome]
    · next hnone =>
      unfold place
      split <;> simp [hnone]

theorem contains_child_iff {name : String} (h : Plain name) :
    tree.contains (p.child name) = true ↔ ∃ loc, tree.locate (p.child name) = .ok loc ∧ tree.lookup loc ≠ none := by
  have hslash := endsInSlash_child p h
  unfold contains entry? find
  cases hlocate : tree.locate (p.child name) with
  | error e => simp
  | ok loc => simp [hslash, confirm, Option.isSome_iff_ne_none]

theorem lookup_of_mem {place : Location} {entry : Entry} (h : (place, entry) ∈ tree.entries) :
    tree.lookup place ≠ none := by
  cases place with
  | nil => nofun
  | cons name rest =>
    intro hnone
    simpa using List.lookup_eq_none_iff.1 hnone _ h

/-- A directory is empty if no location in it is taken. -/
theorem below_eq_nil (h : tree.Leads dir loc) (hnone : ∀ rest, rest ≠ [] → tree.lookup (loc ++ rest) = none) :
    tree.below dir = [] := by
  rw [below_of_leads h, List.filterMap_eq_nil_iff]
  rintro ⟨place, entry⟩ hmem
  dsimp only
  rw [if_neg]
  intro hbelow
  obtain ⟨hstarts, hlonger⟩ := (Bool.and_eq_true _ _).mp hbelow
  obtain ⟨rest, rfl⟩ := List.isPrefixOf_iff_prefix.1 hstarts
  refine lookup_of_mem hmem (hnone rest ?_)
  rintro rfl
  simp at hlonger

end FileTree

/-! ## The first free name -/

open EventCamera.Path EventCamera.FileTree

variable {tree mid next : FileTree} {root : Path} {began : Instant} {j k : Nat}

/-- The path that is tried after `k` others were taken. -/
def runPath (root : Path) (began : Instant) (k : Nat) : Path := root.child (numberedRunName began k)

theorem contains_runPath_iff :
    tree.contains (runPath root began k) = true ↔
      ∃ loc, tree.locate (runPath root began k) = .ok loc ∧ tree.lookup loc ≠ none :=
  contains_child_iff (plain_numberedRunName began k)

/-- The name with number `k` is the first that is free, and it is found before there are more names than entries. -/
structure FirstFree (root : Path) (began : Instant) (tree : FileTree) (k : Nat) : Prop where
  free : tree.contains (runPath root began k) = false
  taken : ∀ j < k, tree.contains (runPath root began j) = true
  bound : k ≤ tree.entries.length

/-- The search goes past the names before. -/
theorem FirstFree.exists_of_lt (h : FirstFree root began tree k) (hj : j < k) :
    tree.createDirectory (runPath root began j) = .error .alreadyExists :=
  createDirectory_eq_alreadyExists_iff.2 (contains_runPath_iff.1 (h.taken j hj))

theorem FirstFree.not_exists (h : FirstFree root began tree k) :
    tree.createDirectory (runPath root began k) ≠ .error .alreadyExists := by
  intro hexists
  have htaken := contains_runPath_iff.2 (createDirectory_eq_alreadyExists_iff.1 hexists)
  rw [h.free] at htaken
  cases htaken

/-- Every name that is taken is an entry of its own. -/
theorem le_length_entries {n : Nat} (h : ∀ j < n, tree.contains (runPath root began j) = true) :
    n ≤ tree.entries.length := by
  cases n with
  | zero => exact Nat.zero_le _
  | succ n =>
    obtain ⟨loc, hlocate, -⟩ := contains_runPath_iff.1 (h 0 (Nat.succ_pos n))
    obtain ⟨-, -, parent, hparent, -, -⟩ := (locate_child_iff (plain_numberedRunName began 0)).1 hlocate
    have hmem : (List.range (n + 1)).map (fun j => parent ++ [numberedRunName began j]) ⊆
        tree.entries.map Prod.fst := by
      intro place hplace
      obtain ⟨j, hj, rfl⟩ := List.mem_map.1 hplace
      obtain ⟨loc, hlocate, hsome⟩ := contains_runPath_iff.1 (h j (List.mem_range.1 hj))
      obtain ⟨-, -, parent', hparent', -, rfl⟩ := (locate_child_iff (plain_numberedRunName began j)).1 hlocate
      obtain rfl : parent' = parent := Except.ok.inj (hparent'.symm.trans hparent)
      obtain ⟨entry, hentry⟩ := Option.ne_none_iff_exists'.1 hsome
      exact List.mem_map.2 ⟨_, mem_of_lookup hentry, rfl⟩
    have hnodup : ((List.range (n + 1)).map fun j => parent ++ [numberedRunName began j]).Nodup := by
      refine List.nodup_range.map ?_
      intro i j hij
      exact numberedRunName_inj (by simpa using hij)
    simpa using (List.subperm_of_subset hnodup hmem).length_le

theorem exists_firstFree (root : Path) (began : Instant) (tree : FileTree) : ∃ k, FirstFree root began tree k := by
  have hfree : ∃ k, tree.contains (runPath root began k) = false := by
    by_contra hall
    have htaken : ∀ k, tree.contains (runPath root began k) = true := by simpa using hall
    have hle := le_length_entries (n := tree.entries.length + 1) fun j _ => htaken j
    omega
  have htaken : ∀ j < Nat.find hfree, tree.contains (runPath root began j) = true := fun j hj => by
    simpa using Nat.find_min hfree hj
  exact ⟨Nat.find hfree, Nat.find_spec hfree, htaken, le_length_entries htaken⟩

/-! ## What a call ends with -/

/-- What a call ends with: no way to the root, no directory under the first free name, or the run directory. -/
inductive RunOutcome (root : Path) (began : Instant) (tree : FileTree) :
    Except StorageError Path × FileTree → Prop where
  | blocked (cause : FileError) (next : FileTree) (hroot : tree.createDirectories root = (.error cause, next)) :
      RunOutcome root began tree (.error (.createDirectory root cause), next)
  | refused (k : Nat) (cause : FileError) (mid : FileTree) (hroot : tree.createDirectories root = (.ok (), mid))
      (hfirst : FirstFree root began mid k) (hcause : mid.createDirectory (runPath root began k) = .error cause) :
      RunOutcome root began tree (.error (.createDirectory (runPath root began k) cause), mid)
  | begun (k : Nat) (mid next : FileTree) (hroot : tree.createDirectories root = (.ok (), mid))
      (hfirst : FirstFree root began mid k) (hnext : mid.createDirectory (runPath root began k) = .ok next) :
      RunOutcome root began tree (.ok (runPath root began k), next)

/-- With enough tries left, the search goes on to the first free name. -/
theorem createRunFrom_of_firstFree {n tries : Nat} (h : FirstFree root began mid n)
    (hroot : tree.createDirectories root = (.ok (), mid)) (hk : k ≤ n) (htries : n < k + tries) :
    RunOutcome root began tree (createRunFrom root began mid tries k) := by
  induction tries generalizing k with
  | zero => omega
  | succ tries ih =>
    unfold createRunFrom
    dsimp only
    rw [← runPath]
    by_cases hn : k = n
    · subst hn
      split
      · next hcreate => exact .begun k mid _ hroot h hcreate
      · next hexists => exact absurd hexists h.not_exists
      · next hcreate => exact .refused k _ mid hroot h hcreate
    · rw [h.exists_of_lt (by omega)]
      exact ih (by omega) (by omega)

theorem runOutcome_createRun (root : Path) (began : Instant) (tree : FileTree) :
    RunOutcome root began tree (createRun root began tree) := by
  unfold createRun
  split
  · next hroot => exact .blocked _ _ hroot
  · next mid hroot =>
    obtain ⟨n, hfirst⟩ := exists_firstFree root began mid
    have hbound := hfirst.bound
    exact createRunFrom_of_firstFree hfirst hroot (Nat.zero_le n) (by omega)

/-! ## What a call has done -/

/-- The run directory is a new and empty one directly under the root, under the first name that is free once there is a
way to the root. Apart from the directories on that way it is all that was created. A name that was passed over was
taken before, or by a directory on the way. -/
structure Begun (root : Path) (began : Instant) (k : Nat) (tree next : FileTree) : Prop where
  first : FirstFree root began (tree.createDirectories root).2 k
  new : tree.contains (runPath root began k) = false
  place : ∃ parent, next.follow (next.base root) root.names = .ok parent ∧
    next.Leads (runPath root began k) (parent ++ [numberedRunName began k]) ∧
    tree.lookup (parent ++ [numberedRunName began k]) = none
  isEmpty : next.below (runPath root began k) = []
  entry : ∀ loc, next.lookup loc = tree.lookup loc ∨
    (tree.lookup loc = none ∧ (next.Leads (runPath root began k) loc ∨ ∃ q, root.Within q ∧ next.Leads q loc))
  taken : ∀ j < k, ∃ loc, next.locate (runPath root began j) = .ok loc ∧
    (tree.lookup loc ≠ none ∨ ∃ q, root.Within q ∧ next.Leads q loc)

/-- What is there stays there on the way to the root. -/
theorem contains_runPath_of_paves (h : Paves root tree mid) (hcontains : tree.contains (runPath root began k) = true) :
    mid.contains (runPath root began k) = true := by
  obtain ⟨loc, hlocate, hsome⟩ := contains_runPath_iff.1 hcontains
  refine contains_runPath_iff.2 ⟨loc, h.keeps.locate hlocate, ?_⟩
  rcases h.entry loc with hsame | ⟨hnone, -⟩
  · rwa [hsame]
  · exact absurd hnone hsome

/-- The names before the first free one were taken, or a directory on the way has taken them. -/
theorem FirstFree.taken_before (h : FirstFree root began mid k) (hpaves : Paves root tree mid)
    (hkeeps : mid.Keeps next) (hj : j < k) :
    ∃ loc, next.locate (runPath root began j) = .ok loc ∧
      (tree.lookup loc ≠ none ∨ ∃ q, root.Within q ∧ next.Leads q loc) := by
  obtain ⟨loc, hlocate, hsome⟩ := contains_runPath_iff.1 (h.taken j hj)
  refine ⟨loc, hkeeps.locate hlocate, ?_⟩
  rcases hpaves.entry loc with hsame | ⟨-, q, hq, hleads⟩
  · exact .inl (hsame ▸ hsome)
  · exact .inr ⟨q, hq, hleads.keeps hkeeps⟩

/-- What is new after a directory was created behind the way. -/
theorem entry_of_paves {dir : Path} {loc : Location} (hpaves : Paves root tree mid) (hnone : mid.lookup loc = none)
    (hleads : (mid.put loc .directory).Leads dir loc) (other : Location) :
    (mid.put loc .directory).lookup other = tree.lookup other ∨
      (tree.lookup other = none ∧ ((mid.put loc .directory).Leads dir other ∨
        ∃ q, root.Within q ∧ (mid.put loc .directory).Leads q other)) := by
  have hkeeps : mid.Keeps (mid.put loc .directory) := keeps_put (by simp [hnone]) _
  by_cases hother : other = loc
  · subst hother
    rcases hpaves.entry other with hsame | ⟨hfree, -⟩
    · exact .inr ⟨hsame ▸ hnone, .inl hleads⟩
    · exact .inr ⟨hfree, .inl hleads⟩
  · rw [lookup_put_of_ne mid _ hother]
    refine (hpaves.entry other).imp_right ?_
    rintro ⟨hfree, q, hq, hq'⟩
    exact ⟨hfree, .inr ⟨q, hq, hq'.keeps hkeeps⟩⟩

theorem RunOutcome.begun_of_ok {dir : Path} (h : RunOutcome root began tree (.ok dir, next)) (hg : tree.Grounded) :
    ∃ k, dir = runPath root began k ∧ Begun root began k tree next := by
  cases h with
  | begun k mid _ hroot hfirst hnext =>
    have hpaves := paves_createDirectories tree root
    have hmid := hg.createDirectories root
    rw [hroot] at hpaves hmid
    have hkeeps := keeps_createDirectory hnext
    obtain ⟨loc, hlocate, hnone, rfl⟩ := createDirectory_eq_ok hnext
    have hleads : (mid.put loc .directory).Leads (runPath root began k) loc :=
      ⟨hkeeps.locate hlocate, lookup_put_of_not_directory (by simp [hnone]) _⟩
    have hbefore : tree.lookup loc = none := by
      rcases hpaves.entry loc with hsame | ⟨hfree, -⟩
      · rw [← hsame, hnone]
      · exact hfree
    refine ⟨k, rfl, ?_, ?_, ?_, ?_, ?_, ?_⟩
    · rw [hroot]
      exact hfirst
    · by_contra hcontains
      have hthere := contains_runPath_of_paves hpaves (by simpa using hcontains)
      rw [hfirst.free] at hthere
      cases hthere
    · obtain ⟨-, -, parent, hparent, -, rfl⟩ := (locate_child_iff (plain_numberedRunName began k)).1 hleads.locate
      exact ⟨parent, hparent, hleads, hbefore⟩
    · refine below_eq_nil hleads fun rest hrest => ?_
      rw [lookup_put_of_ne mid _ (by simpa using hrest)]
      exact hmid.lookup_append (by simp [hnone]) hrest
    · exact entry_of_paves hpaves hnone hleads
    · exact fun j hj => hfirst.taken_before hpaves hkeeps hj

/-- Without a run directory there is only the way to the root. The call has given up at the root or at the first name
that is free, which no directory can have. -/
structure NotBegun (root : Path) (began : Instant) (e : StorageError) (tree next : FileTree) : Prop where
  way : next = (tree.createDirectories root).2
  paves : Paves root tree next
  cause : (∃ cause, tree.createDirectories root = (.error cause, next) ∧ e = .createDirectory root cause) ∨
    ∃ k cause, FirstFree root began next k ∧ e = .createDirectory (runPath root began k) cause ∧
      cause ≠ .alreadyExists

theorem RunOutcome.notBegun_of_error {e : StorageError} (h : RunOutcome root began tree (.error e, next)) :
    NotBegun root began e tree next := by
  have hpaves := paves_createDirectories tree root
  cases h with
  | blocked cause _ hroot =>
    rw [hroot] at hpaves
    exact ⟨by rw [hroot], hpaves, .inl ⟨cause, hroot, rfl⟩⟩
  | refused k cause _ hroot hfirst hcause =>
    rw [hroot] at hpaves
    refine ⟨by rw [hroot], hpaves, .inr ⟨k, cause, hfirst, rfl, ?_⟩⟩
    rintro rfl
    exact hfirst.not_exists hcause

/-! ## Runs one after the other -/

/-- Calls one after the other, with any roots and times, and in between whatever takes no directory away. The paths are
those of the runs that began. -/
inductive RunHistory (tree : FileTree) : List Path → FileTree → Prop where
  | start : RunHistory tree [] tree
  | call {dirs : List Path} {mid : FileTree} (h : RunHistory tree dirs mid) (root : Path) (began : Instant) :
      RunHistory tree (dirs ++ (createRun root began mid).1.toOption.toList) (createRun root began mid).2
  | meanwhile {dirs : List Path} {mid next : FileTree} (h : RunHistory tree dirs mid) (hkeeps : mid.Keeps next) :
      RunHistory tree dirs next

theorem RunHistory.apart {dirs : List Path} (h : RunHistory tree dirs next) : next.Apart dirs := by
  induction h with
  | start => exact apart_nil tree
  | @call dirs mid _ root began ih =>
    rcases hrun : createRun root began mid with ⟨e | dir, next⟩
    · have hkeeps := keeps_createRun root began mid
      rw [hrun] at hkeeps
      simpa [Except.toOption] using ih.keeps hkeeps
    · exact ih.createRun hrun
  | meanwhile _ hkeeps ih => exact ih.keeps hkeeps

theorem FileTree.Apart.nodup {dirs : List Path} (h : tree.Apart dirs) : dirs.Nodup := by
  refine h.distinct.imp_of_mem ?_
  rintro dir _ hdir - hne rfl
  obtain ⟨loc, hleads⟩ := h.leads dir hdir
  exact hne loc hleads hleads

/-- Every run directory is fresh. The search always ends at the first name that is free once there is a way to the root,
and creating that way changes nothing if the root is a directory already. The answer is the path of a new and empty
directory right under the root, or an error, and then nothing was created but directories on the way to the root. What
there was is as it was. In calls one after the other, whatever is created between them, no two runs get the same path or
the same directory. -/
theorem run_directories_fresh (tree : FileTree) :
    (∀ root began, tree.Grounded →
      (tree.isDirectory root = true → (tree.createDirectories root).2 = tree) ∧
      ((∃ k next, createRun root began tree = (.ok (runPath root began k), next) ∧ Begun root began k tree next) ∨
        ∃ e next, createRun root began tree = (.error e, next) ∧ NotBegun root began e tree next)) ∧
    ∀ dirs next, RunHistory tree dirs next → dirs.Nodup ∧ next.Apart dirs := by
  refine ⟨fun root began hg => ⟨fun h => by rw [createDirectories_of_isDirectory h], ?_⟩, fun dirs next h => ?_⟩
  · have hends := runOutcome_createRun root began tree
    rcases hrun : createRun root began tree with ⟨e | dir, next⟩
    · rw [hrun] at hends
      exact .inr ⟨e, next, rfl, hends.notBegun_of_error⟩
    · rw [hrun] at hends
      obtain ⟨k, rfl, hbegun⟩ := hends.begun_of_ok hg
      exact .inl ⟨k, next, rfl, hbegun⟩
  · exact ⟨h.apart.nodup, h.apart⟩

/-- Two names are taken, one of them by a file, and the third is free. A second run then gets the fourth. -/
theorem run_directories_fresh_third :
    let tree := (FileTree.empty.put ["run_19700101_000000"] (.file [])).put ["run_19700101_000000_1"] .directory
    tree.Grounded ∧ RunHistory tree [⟨"/run_19700101_000000_2"⟩, ⟨"/run_19700101_000000_3"⟩]
        (createRun ⟨"/"⟩ .epoch (createRun ⟨"/"⟩ .epoch tree).2).2 ∧
      ([⟨"/run_19700101_000000_2"⟩, ⟨"/run_19700101_000000_3"⟩] : List Path).Nodup ∧
      ∃ k next, createRun ⟨"/"⟩ .epoch tree = (.ok (runPath ⟨"/"⟩ .epoch k), next) ∧
        runPath ⟨"/"⟩ .epoch k = ⟨"/run_19700101_000000_2"⟩ ∧ next.below ⟨"/run_19700101_000000_2"⟩ = [] := by
  intro tree
  have hg : tree.Grounded :=
    (grounded_empty.put (p := ⟨"/run_19700101_000000"⟩) (by decide +kernel) (by decide +kernel) _).put
      (p := ⟨"/run_19700101_000000_1"⟩) (by decide +kernel) (by decide +kernel) _
  have hfirst : (createRun ⟨"/"⟩ .epoch tree).1 = .ok ⟨"/run_19700101_000000_2"⟩ := by decide +kernel
  have hsecond : (createRun ⟨"/"⟩ .epoch (createRun ⟨"/"⟩ .epoch tree).2).1 = .ok ⟨"/run_19700101_000000_3"⟩ := by
    decide +kernel
  have hstart : RunHistory tree [] tree := .start
  have hhistory := (hstart.call ⟨"/"⟩ .epoch).call ⟨"/"⟩ .epoch
  rw [hfirst, hsecond] at hhistory
  refine ⟨hg, hhistory, ((run_directories_fresh tree).2 _ _ hhistory).1, ?_⟩
  rcases ((run_directories_fresh tree).1 ⟨"/"⟩ .epoch hg).2 with ⟨k, next, hrun, hbegun⟩ | ⟨e, next, hrun, -⟩
  · rw [hrun] at hfirst
    have hpath : runPath ⟨"/"⟩ .epoch k = ⟨"/run_19700101_000000_2"⟩ := Except.ok.inj hfirst
    exact ⟨k, next, hrun, hpath, hpath ▸ hbegun.isEmpty⟩
  · rw [hrun] at hfirst
    cases hfirst

/-- A name can be free before the call and taken by a directory that the call creates on the way to the root. -/
theorem taken_on_the_way :
    let root : Path := ⟨"run_19700101_000000/.."⟩
    FileTree.empty.Grounded ∧ FileTree.empty.contains (root.child (runDirectoryName .epoch)) = false ∧
      FileTree.empty.lookup [runDirectoryName .epoch] = none ∧
      (createRun root .epoch .empty).1 = .ok (root.child (runDirectoryName .epoch ++ "_1")) :=
  ⟨grounded_empty, by decide +kernel, by decide +kernel, by decide +kernel⟩

end EventCamera
