import EventCamera.Files.Tree
/-!
# Atomic writes

A file is written into a temporary sibling that is then renamed into place, so a reader finds either
the old entry or the complete new content. After a failure the sibling is deleted.
-/

namespace EventCamera

/-- One step of a write. -/
inductive FileStep where
  | create (p : Path)
  | append (p : Path) (bytes : Bytes)
  | rename (old new : Path)
  | remove (p : Path)
  deriving DecidableEq, Repr

namespace FileTree

/-- Performs one step. -/
def perform (tree : FileTree) : FileStep → Except FileError FileTree
  | .create p => tree.createFile p
  | .append p bytes => tree.appendFile p bytes
  | .rename old new => tree.renameFile old new
  | .remove p => tree.removeFile p

/-- Performs steps until one fails, and gives the tree reached. -/
def performUntilError (tree : FileTree) : List FileStep → Except FileError Unit × FileTree
  | [] => (.ok (), tree)
  | step :: steps =>
    match tree.perform step with
    | .ok tree => tree.performUntilError steps
    | .error e => (.error e, tree)

/-- The temporary sibling of a path. -/
def temporary (p : Path) : Path := p.withExtension "tmp"

/-- The steps of an atomic write. -/
def atomicSteps (p : Path) (bytes : Bytes) : List FileStep :=
  [.create (temporary p), .append (temporary p) bytes, .rename (temporary p) p]

/-- Writes a file through its temporary sibling. -/
def writeAtomically (tree : FileTree) (p : Path) (bytes : Bytes) : Except FileError Unit × FileTree :=
  match tree.performUntilError (atomicSteps p bytes) with
  | (.ok (), tree) => (.ok (), tree)
  | (.error e, tree) =>
    match tree.perform (.remove (temporary p)) with
    | .ok tree => (.error e, tree)
    | .error _ => (.error e, tree)

end FileTree

end EventCamera
