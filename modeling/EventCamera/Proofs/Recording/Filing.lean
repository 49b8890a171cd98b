import EventCamera.Proofs.Recording.ReadBack
import EventCamera.Recording.Recorder
/-!
# Filing recorded windows

A directory that takes recorded files (`FileTree.Takes`) takes the next window under the next number and still
takes recorded files after it (`Takes.write`, `Takes.filed`). Windows filed one after the other have names of
their own, by their numbers alone (`nodup_runFiles`), so an empty directory then holds one file for each of them
and nothing else (`FileTree.below_filedAll`).
-/

namespace EventCamera

namespace FileTree

variable {tree : FileTree} {dir : Path} {loc : Location}

/-! ## Directories that take recorded files -/

/-- A file can be created in the directory under every name that a recorded window may have. -/
def Writable (tree : FileTree) (dir : Path) : Prop :=
  ∀ number start, ∃ next, tree.createFile (dir.child (windowFileName number start)) = .ok next

/-- The path leads to the directory at `loc` and leaves room for the names of recorded windows, and no
directory stands where their files go. -/
structure Takes (tree : FileTree) (dir : Path) (loc : Location) : Prop where
  leads : tree.Leads dir loc
  room : ∀ number start, (dir.child (windowFileName number start)).text.utf8ByteSize ≤ longestPath
  files : ∀ name, tree.lookup (loc ++ [name]) ≠ some .directory

theorem mem_of_lookup {entry : Entry} {name : String} (h : tree.lookup (loc ++ [name]) = some entry) :
    (loc ++ [name], entry) ∈ tree.entries := by
  have hentries : tree.entries.lookup (loc ++ [name]) = some entry := by
    cases loc <;> exact h
  obtain ⟨before, after, heq, -⟩ := List.lookup_eq_some_iff.1 hentries
  simp [heq]

theorem below_of_leads (h : tree.Leads dir loc) :
    tree.below dir = tree.entries.filterMap fun (place, entry) =>
      if loc.isPrefixOf place && loc.length < place.length then some (place.drop loc.length, entry) else none := by
  rw [below, h.locate]
  dsimp only
  rw [if_neg (by simp [h.directory])]

/-- In an empty directory there is no entry of any name. -/
theorem not_below_of_empty (h : tree.Leads dir loc) (hempty : tree.below dir = []) {entry : Location × Entry}
    (he : entry ∈ tree.entries) {rest : Location} (hrest : rest ≠ []) : entry.1 ≠ loc ++ rest := by
  rintro heq
  rw [below_of_leads h, List.filterMap_eq_nil_iff] at hempty
  have hnone := hempty entry he
  have hlt : loc.length < (loc ++ rest).length := by
    have hpos := List.length_pos_of_ne_nil hrest
    rw [List.length_append]
    omega
  have hstarts : loc.isPrefixOf (loc ++ rest) = true := List.isPrefixOf_iff_prefix.2 (List.prefix_append loc rest)
  obtain ⟨place, content⟩ := entry
  subst heq
  simp [hstarts, hrest] at hnone

theorem takes_of_writable (h : tree.Leads dir loc) (hempty : tree.below dir = []) (hw : tree.Writable dir) :
    tree.Takes dir loc := by
  refine ⟨h, ?_, ?_⟩
  · intro number start
    obtain ⟨next, hnext⟩ := hw number start
    unfold createFile at hnext
    split at hnext
    · cases hnext
    · next hlocate => exact (locate_eq_ok_iff.1 hlocate).2.2.1
  · intro name hdirectory
    exact not_below_of_empty h hempty (mem_of_lookup hdirectory) (by simp) rfl

theorem canBeNamed_of_short {name : String} (h : name.utf8ByteSize ≤ 57) : canBeNamed (loc ++ [name]) = true := by
  have hlongest : longestName = 255 := rfl
  simp only [canBeNamed, List.getLastD_concat, decide_eq_true_eq]
  omega

/-- The tree after a window was filed in the directory at `loc`. -/
def filed (loc : Location) (number : UInt64) (w : Window) (tree : FileTree) : FileTree :=
  (tree.erase (loc ++ [windowSibling number w.start])).put (loc ++ [windowFileName number w.start])
    (.file (Bytes.ofChars w.text))

theorem Takes.room_windowSibling (h : tree.Takes dir loc) (number : UInt64) (start : Timestamp) :
    (dir.child (windowSibling number start)).text.utf8ByteSize ≤ longestPath := by
  have hroom := h.room number start
  rw [Path.utf8ByteSize_child h.leads.isEmpty_text (plain_windowFileName number start)] at hroom
  rw [Path.utf8ByteSize_child h.leads.isEmpty_text (plain_windowSibling number start), utf8ByteSize_windowSibling]
  exact hroom

/-- A window is filed under the next number. -/
theorem Takes.write (h : tree.Takes dir loc) (recorder : Recorder) (w : Window) :
    recorder.write dir w tree = (.ok (dir.child (windowFileName (recorder.written + 1) w.start)),
      ⟨recorder.written + 1⟩, filed loc (recorder.written + 1) w tree) := by
  have hname := utf8ByteSize_windowFileName_le (recorder.written + 1) w.start
  have hsibling := hname
  rw [← utf8ByteSize_windowSibling] at hsibling
  have htemporary := temporary_windowFileName dir (recorder.written + 1) w.start
  have hwrite := writeAtomically_child h.leads (plain_windowFileName (recorder.written + 1) w.start)
    (plain_windowSibling (recorder.written + 1) w.start) htemporary (h.room _ _) (h.room_windowSibling _ _)
    (canBeNamed_of_short hname) (canBeNamed_of_short hsibling) (h.files _) (h.files _)
    windowFileName_ne_windowSibling (Bytes.ofChars w.text)
  unfold Recorder.write
  dsimp only
  rw [hwrite]
  dsimp only [filed]

/-- A file takes the place of no directory, so the next one can be written as well. -/
theorem Takes.filed (h : tree.Takes dir loc) (number : UInt64) (w : Window) :
    (tree.filed loc number w).Takes dir loc := by
  have hname : loc ++ [windowFileName number w.start] ≠ loc ++ [windowSibling number w.start] := by
    simpa using windowFileName_ne_windowSibling
  have herased : (tree.erase (loc ++ [windowSibling number w.start])).lookup
      (loc ++ [windowFileName number w.start]) ≠ some .directory := by
    rw [lookup_erase_of_ne tree hname]
    exact h.files _
  have hkeeps : tree.Keeps (tree.filed loc number w) :=
    (keeps_erase (h.files _)).trans (keeps_put herased _)
  refine ⟨h.leads.keeps hkeeps, h.room, ?_⟩
  intro name
  unfold FileTree.filed
  by_cases hput : loc ++ [name] = loc ++ [windowFileName number w.start]
  · rw [hput, lookup_put_self _ _ (by simp)]
    simp
  · rw [lookup_put_of_ne _ _ hput]
    by_cases hgone : loc ++ [name] = loc ++ [windowSibling number w.start]
    · rw [hgone, lookup_erase_self _ (by simp)]
      simp
    · rw [lookup_erase_of_ne tree hgone]
      exact h.files name

/-- A directory whose path leaves room for a slash and a name takes recorded files. -/
theorem writable_of_room (h : tree.Leads dir loc) (hroom : dir.text.utf8ByteSize + 58 ≤ longestPath)
    (hfiles : ∀ name, tree.lookup (loc ++ [name]) ≠ some .directory) : tree.Writable dir := by
  intro number start
  have hsize := utf8ByteSize_windowFileName_le number start
  have hplain := plain_windowFileName number start
  have hchild : (dir.child (windowFileName number start)).text.utf8ByteSize ≤ longestPath := by
    rw [Path.utf8ByteSize_child h.isEmpty_text hplain]
    split <;> omega
  have hnamed : canBeNamed (loc ++ [windowFileName number start]) = true := canBeNamed_of_short hsize
  refine ⟨tree.put (loc ++ [windowFileName number start]) (.file []), ?_⟩
  rw [createFile, h.locate_child hplain hchild]
  dsimp only
  rw [if_neg (by simp [Path.endsInSlash_child dir hplain])]
  split
  · next hdirectory => exact absurd hdirectory (hfiles _)
  · exact place_eq_ok_iff.2 ⟨hnamed, rfl⟩

/-! ## Filing one window after the other -/

/-- The tree after windows were filed, numbered from one on. -/
def filedAll (loc : Location) (ws : List Window) (tree : FileTree) : FileTree :=
  (ws.zipIdx 1).foldl (fun tree (w, i) => tree.filed loc (.ofNat i) w) tree

theorem filedAll_concat (loc : Location) (ws : List Window) (w : Window) (tree : FileTree) :
    tree.filedAll loc (ws ++ [w]) = (tree.filedAll loc ws).filed loc (.ofNat (ws.length + 1)) w := by
  rw [filedAll, List.zipIdx_append, List.foldl_append, filedAll, Nat.add_comm 1]
  rfl

end FileTree

/-- What a run holds: name and content of each file, in the order in which they were written. -/
def runFiles (ws : List Window) : List (String × Entry) :=
  (ws.zipIdx 1).map fun (w, i) => (windowFileName (.ofNat i) w.start, .file (Bytes.ofChars w.text))

theorem runFiles_concat (ws : List Window) (w : Window) :
    runFiles (ws ++ [w]) =
      runFiles ws ++ [(windowFileName (.ofNat (ws.length + 1)) w.start, .file (Bytes.ofChars w.text))] := by
  rw [runFiles, List.zipIdx_append, List.map_append, Nat.add_comm 1]
  rfl

/-- The number in a name tells which window of the run it is. -/
theorem number_of_mem_runFiles {ws : List Window} {file : String × Entry} (h : file ∈ runFiles ws) :
    ∃ i start, 1 ≤ i ∧ i ≤ ws.length ∧ file.1 = windowFileName (.ofNat i) start := by
  obtain ⟨⟨w, i⟩, hw, rfl⟩ := List.mem_map.1 h
  have hi := List.mem_zipIdx hw
  exact ⟨i, w.start, hi.1, by omega, rfl⟩

/-- A window that comes after fewer than `2 ^ 64` of them has a name that no earlier one bears. -/
theorem ne_of_mem_runFiles {ws : List Window} (hlength : ws.length + 1 < 2 ^ 64) {file : String × Entry}
    (h : file ∈ runFiles ws) (start : Timestamp) : file.1 ≠ windowFileName (.ofNat (ws.length + 1)) start := by
  obtain ⟨i, start', hpos, hle, hname⟩ := number_of_mem_runFiles h
  rw [hname, ne_eq, windowFileName_inj]
  rintro ⟨hnumber, -⟩
  have hnat := congrArg UInt64.toNat hnumber
  rw [UInt64.toNat_ofNat', UInt64.toNat_ofNat', Nat.mod_eq_of_lt (by omega), Nat.mod_eq_of_lt (by omega)] at hnat
  omega

/-- Distinct windows of a run have distinct names, even if they start at the same sensor time. -/
theorem nodup_runFiles {ws : List Window} (hlength : ws.length < 2 ^ 64) :
    ((runFiles ws).map Prod.fst).Nodup := by
  induction ws using List.reverseRecOn with
  | nil => exact List.nodup_nil
  | append_singleton ws w ih =>
    rw [List.length_append, List.length_singleton] at hlength
    rw [runFiles_concat, List.map_append]
    refine List.nodup_append.2 ⟨ih (by omega), List.nodup_singleton _, ?_⟩
    intro name hname name' hname'
    obtain ⟨file, hfile, rfl⟩ := List.mem_map.1 hname
    rw [List.map_cons, List.map_nil, List.mem_singleton] at hname'
    rw [hname']
    exact ne_of_mem_runFiles hlength hfile w.start

namespace FileTree

variable {tree : FileTree} {dir : Path} {loc : Location}

/-- Nothing is displaced if neither the name nor its temporary sibling is in use. -/
theorem entries_filed {number : UInt64} {w : Window}
    (hname : ∀ entry ∈ tree.entries, entry.1 ≠ loc ++ [windowFileName number w.start])
    (hsibling : ∀ entry ∈ tree.entries, entry.1 ≠ loc ++ [windowSibling number w.start]) :
    (tree.filed loc number w).entries =
      (loc ++ [windowFileName number w.start], .file (Bytes.ofChars w.text)) :: tree.entries := by
  simp only [filed, put, erase]
  rw [List.filter_eq_self.2 fun entry h => bne_iff_ne.2 (hsibling entry h),
    List.filter_eq_self.2 fun entry h => bne_iff_ne.2 (hname entry h)]

/-- In an empty directory all windows of a run are kept. -/
theorem entries_filedAll (h : tree.Leads dir loc) (hempty : tree.below dir = []) {ws : List Window}
    (hlength : ws.length < 2 ^ 64) :
    (tree.filedAll loc ws).entries =
      (runFiles ws).reverse.map (fun file => (loc ++ [file.1], file.2)) ++ tree.entries := by
  induction ws using List.reverseRecOn with
  | nil => rfl
  | append_singleton ws w ih =>
    rw [List.length_append, List.length_singleton] at hlength
    have hentries := ih (by omega)
    rw [filedAll_concat, entries_filed, hentries, runFiles_concat, List.reverse_append]
    · rfl
    · intro entry hentry heq
      rw [hentries, List.mem_append] at hentry
      rcases hentry with hentry | hentry
      · obtain ⟨file, hfile, rfl⟩ := List.mem_map.1 hentry
        have hne := ne_of_mem_runFiles hlength (List.mem_reverse.1 hfile) w.start
        exact hne (by simpa using heq)
      · exact not_below_of_empty h hempty hentry (by simp) heq
    · intro entry hentry heq
      rw [hentries, List.mem_append] at hentry
      rcases hentry with hentry | hentry
      · obtain ⟨file, hfile, rfl⟩ := List.mem_map.1 hentry
        obtain ⟨i, start, -, -, hname⟩ := number_of_mem_runFiles (List.mem_reverse.1 hfile)
        simp only [hname] at heq
        exact windowFileName_ne_windowSibling (by simpa using heq)
      · exact not_below_of_empty h hempty hentry (by simp) heq

theorem Takes.filedAll (h : tree.Takes dir loc) (ws : List Window) : (tree.filedAll loc ws).Takes dir loc := by
  induction ws using List.reverseRecOn with
  | nil => exact h
  | append_singleton ws w ih =>
    rw [filedAll_concat]
    exact ih.filed _ w

/-- The directory then holds the files of the run and nothing else. -/
theorem below_filedAll (h : tree.Takes dir loc) (hempty : tree.below dir = []) {ws : List Window}
    (hlength : ws.length < 2 ^ 64) :
    (tree.filedAll loc ws).below dir = (runFiles ws).reverse.map fun file => ([file.1], file.2) := by
  have hbefore := hempty
  rw [below_of_leads h.leads] at hbefore
  rw [below_of_leads (h.filedAll ws).leads, entries_filedAll h.leads hempty hlength, List.filterMap_append, hbefore,
    List.append_nil, List.filterMap_map]
  have hone : ∀ file : String × Entry,
      (if loc.isPrefixOf (loc ++ [file.1]) && loc.length < (loc ++ [file.1]).length then
        some ((loc ++ [file.1]).drop loc.length, file.2) else none) = some ([file.1], file.2) := by
    intro file
    have hstarts : loc.isPrefixOf (loc ++ [file.1]) = true :=
      List.isPrefixOf_iff_prefix.2 (List.prefix_append loc [file.1])
    simp [hstarts]
  simp only [Function.comp_def, hone]
  rw [List.filterMap_eq_map']

end FileTree

end EventCamera
