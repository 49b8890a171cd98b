import EventCamera.Proofs.Files.Failures
import EventCamera.Proofs.Recording.Names
/-!
# Files that are stored whole or not at all

Recorded windows and captures are written atomically, under names of which none is that of its temporary sibling
(`separate_child`). So a file is stored whole or what stood in its place still does, nothing else is touched, and the
recorder counts what was stored (`stored_whole`).
-/

namespace EventCamera

open EventCamera.Path EventCamera.FileTree

variable {tree : FileTree} {dir : Path}

/-- A plain name behind a path and the name of its temporary sibling are those of two files. -/
theorem separate_child {name sibling : String} (h : Plain name) (h' : Plain sibling) (hne : name ≠ sibling)
    (htemporary : temporary (dir.child name) = dir.child sibling) : tree.Separate (dir.child name) := by
  refine ⟨endsInSlash_child dir h, ?_, ?_⟩
  · rw [htemporary]
    exact endsInSlash_child dir h'
  · rw [htemporary]
    intro loc hlocate hlocate'
    exact locate_child_ne h h' hne hlocate hlocate' rfl

theorem separate_window (tree : FileTree) (dir : Path) (number : UInt64) (start : Timestamp) :
    tree.Separate (dir.child (windowFileName number start)) :=
  separate_child (plain_windowFileName number start) (plain_windowSibling number start)
    windowFileName_ne_windowSibling (temporary_windowFileName dir number start)

theorem separate_capture (tree : FileTree) (root : Path) (taken : Instant) :
    tree.Separate (captureTarget root taken) :=
  separate_child (plain_captureFileName taken) (plain_captureSibling taken)
    (captureFileName_ne_captureSibling taken) (temporary_captureFileName _ taken)

/-! ## Storing a file -/

/-- What storing answers: the path of the file, now in place, or why it could not be written. -/
theorem Recorder.write_whole (dir : Path) (w : Window) (recorder : Recorder) (tree : FileTree) {target : Path}
    (htarget : target = dir.child (windowFileName (recorder.written + 1) w.start)) :
    (∃ next, recorder.write dir w tree = (.ok target, ⟨recorder.written + 1⟩, next) ∧
        Written target (Bytes.ofChars w.text) tree next) ∨
      ∃ e next, recorder.write dir w tree = (.error (.write target e), recorder, next) ∧
        NotWritten target tree next := by
  subst htarget
  have hseparate := separate_window tree dir (recorder.written + 1) w.start
  unfold Recorder.write
  dsimp only
  rcases hseparate.writeAtomically (Bytes.ofChars w.text) with ⟨next, hwrite, h⟩ | ⟨e, next, hwrite, h⟩
  · rw [hwrite]
    exact .inl ⟨next, rfl, h⟩
  · rw [hwrite]
    exact .inr ⟨e, next, rfl, h⟩

theorem saveCapture_whole {root : Path} {mid : FileTree}
    (hmid : tree.createDirectories (capturesDirectory root) = (.ok (), mid)) (frame : Frame) (taken : Instant) :
    (∃ next, saveCapture root frame taken tree = (.ok (captureTarget root taken), next) ∧
        Written (captureTarget root taken) frame.image mid next) ∨
      ∃ e next, saveCapture root frame taken tree = (.error (.write (captureTarget root taken) e), next) ∧
        NotWritten (captureTarget root taken) mid next := by
  have hseparate := separate_capture mid root taken
  unfold saveCapture
  dsimp only
  rw [hmid, ← captureTarget]
  dsimp only
  rcases hseparate.writeAtomically frame.image with ⟨next, hwrite, h⟩ | ⟨e, next, hwrite, h⟩
  · rw [hwrite]
    exact .inl ⟨next, rfl, h⟩
  · rw [hwrite]
    exact .inr ⟨e, next, rfl, h⟩

/-- Storing is atomic. Whatever there is in the file tree and wherever a window is to be recorded, the answer is the
path of a file that holds all of it, its temporary sibling is gone and the recorder has counted one more (in 64 bits);
or it is an error, and then the recorder and the entry at that path are what they were and no file is left in the place
of the sibling. With captures it is the same once their directory has been created, which changes nothing if it was
there. No other entry and no other path is affected, and on the way the path leads to the old entry or to the whole new
content, after however many pieces of it were put down. -/
theorem stored_whole (tree : FileTree) :
    (∀ (dir : Path) (w : Window) (recorder : Recorder),
      let target := dir.child (windowFileName (recorder.written + 1) w.start)
      let content := Bytes.ofChars w.text
      Unseen target content tree ∧
      ((∃ next, recorder.write dir w tree = (.ok target, ⟨recorder.written + 1⟩, next) ∧
          Written target content tree next) ∨
        ∃ e next, recorder.write dir w tree = (.error (.write target e), recorder, next) ∧
          NotWritten target tree next)) ∧
    ∀ (root : Path) (frame : Frame) (taken : Instant),
      let target := captureTarget root taken
      (tree.isDirectory (capturesDirectory root) = true →
        tree.createDirectories (capturesDirectory root) = (.ok (), tree)) ∧
      ∀ mid, tree.createDirectories (capturesDirectory root) = (.ok (), mid) →
        Unseen target frame.image mid ∧
        ((∃ next, saveCapture root frame taken tree = (.ok target, next) ∧ Written target frame.image mid next) ∨
          ∃ e next, saveCapture root frame taken tree = (.error (.write target e), next) ∧
            NotWritten target mid next) := by
  refine ⟨?_, ?_⟩
  · intro dir w recorder target content
    exact ⟨(separate_window tree dir _ _).unseen content, recorder.write_whole dir w tree rfl⟩
  · intro root frame taken target
    refine ⟨createDirectories_of_isDirectory, fun mid hmid => ?_⟩
    exact ⟨(separate_capture mid root taken).unseen frame.image, saveCapture_whole hmid frame taken⟩

/-- A capture takes the place of an older file, and the temporary sibling of a crashed write goes with it. -/
theorem stored_whole_anew :
    let name : Location := ["captures", "capture_19700101_000000_000.pgm"]
    let sibling : Location := ["captures", "capture_19700101_000000_000.tmp"]
    let tree := ((FileTree.empty.put ["captures"] .directory).put name (.file [1])).put sibling (.file [2])
    let frame := Frame.blank ⟨1, 1⟩
    tree.isDirectory (capturesDirectory ⟨"/"⟩) = true ∧
      ∃ next, saveCapture ⟨"/"⟩ frame .epoch tree = (.ok (captureTarget ⟨"/"⟩ .epoch), next) ∧
        next.entry? (captureTarget ⟨"/"⟩ .epoch) = some (.file frame.image) ∧
        next.entry? (temporary (captureTarget ⟨"/"⟩ .epoch)) = none := by
  intro name sibling tree frame
  have hdirectory : tree.isDirectory (capturesDirectory ⟨"/"⟩) = true := by decide +kernel
  have hok : (saveCapture ⟨"/"⟩ frame .epoch tree).1.isOk = true := by decide +kernel
  obtain ⟨hthere, hstored⟩ := (stored_whole tree).2 ⟨"/"⟩ frame .epoch
  rcases (hstored tree (hthere hdirectory)).2 with ⟨next, hsave, hwritten⟩ | ⟨e, next, hsave, -⟩
  · exact ⟨hdirectory, next, hsave, hwritten.target, hwritten.sibling⟩
  · rw [hsave] at hok
    cases hok

end EventCamera
