import EventCamera.Files.Atomic
import EventCamera.Recording.Image
import EventCamera.Recording.Names
import EventCamera.Recording.WindowText
/-!
# Recordings and captures on disk

A run keeps one text file per recorded window in a directory of its own; a capture is one image
under `captures`. Files are written atomically. The recorder numbers the files of a run from one,
and its count advances only when a file was written.
-/

namespace EventCamera

/-- Why something could not be stored. -/
inductive StorageError where
  | createDirectory (path : Path) (cause : FileError)
  | write (path : Path) (cause : FileError)
  deriving DecidableEq, Repr

def StorageError.message : StorageError → String
  | createDirectory path cause => "failed to create directory " ++ path.text ++ ": " ++ cause.message
  | write path cause => "failed to write " ++ path.text ++ ": " ++ cause.message

/-- Count of the files written in the current run. -/
structure Recorder where
  written : UInt64
  deriving DecidableEq, Repr, Inhabited

namespace Recorder

def new : Recorder := ⟨0⟩

/-- Writes the kept events of a window into a directory, under the next number. -/
def write (dir : Path) (w : Window) (r : Recorder) (tree : FileTree) :
    Except StorageError Path × Recorder × FileTree :=
  let number := r.written + 1
  let path := dir.child (windowFileName number w.start)
  match tree.writeAtomically path (Bytes.ofChars w.text) with
  | (.ok (), tree) => (.ok path, ⟨number⟩, tree)
  | (.error e, tree) => (.error (.write path e), r, tree)

end Recorder

/-! ## Runs -/

/-- Creates the first run directory from number `k` on that is not taken, trying at most `tries`
names. -/
def createRunFrom (root : Path) (began : Instant) (tree : FileTree) :
    (tries k : Nat) → Except StorageError Path × FileTree
  | 0, k => (.error (.createDirectory (root.child (numberedRunName began k)) .alreadyExists), tree)
  | tries + 1, k =>
    let path := root.child (numberedRunName began k)
    match tree.createDirectory path with
    | .ok tree => (.ok path, tree)
    | .error .alreadyExists => createRunFrom root began tree tries (k + 1)
    | .error e => (.error (.createDirectory path e), tree)

/-- Creates a fresh run directory under `root`. One name more than there are entries is enough, as
each taken name is an entry of its own. -/
def createRun (root : Path) (began : Instant) (tree : FileTree) : Except StorageError Path × FileTree :=
  match tree.createDirectories root with
  | (.error e, tree) => (.error (.createDirectory root e), tree)
  | (.ok (), tree) => createRunFrom root began tree (tree.entries.length + 1) 0

/-! ## Captures -/

def capturesDirectory (root : Path) : Path := root.child "captures"

/-- Stores a frame as an image under `captures`. -/
def saveCapture (root : Path) (frame : Frame) (taken : Instant) (tree : FileTree) :
    Except StorageError Path × FileTree :=
  let dir := capturesDirectory root
  match tree.createDirectories dir with
  | (.error e, tree) => (.error (.createDirectory dir e), tree)
  | (.ok (), tree) =>
    let path := dir.child (captureFileName taken)
    match tree.writeAtomically path frame.image with
    | (.ok (), tree) => (.ok path, tree)
    | (.error e, tree) => (.error (.write path e), tree)

end EventCamera
