import EventCamera.Files.Path
import EventCamera.Text.Bytes
/-!
# File trees

A file tree assigns an entry, a directory or a file with its bytes, to some locations. A location is
the list of names that leads there from the root, and the root is always a directory. Operations
name entries by path and fail for the reasons a Unix system has; a failed operation changes nothing.

Paths are followed one name at a time: every name but the last must lead to a directory, and `..`
leads back. A slash or a dot at the end asks for a directory. Names and paths have a greatest length:
a path is measured before it is followed, a name when it is looked up. There are no links and no
permissions.
-/

namespace EventCamera

/-- Names from the root to an entry. -/
abbrev Location := List String

/-- What a location can hold. -/
inductive Entry where
  | directory
  | file (content : Bytes)
  deriving DecidableEq, Repr, Inhabited

inductive FileError where
  | notFound
  | alreadyExists
  | notADirectory
  | isADirectory
  | nameTooLong
  | zeroByteInName
  | noWholeTree
  deriving DecidableEq, Repr, Inhabited

def FileError.message : FileError → String
  | notFound => "No such file or directory (os error 2)"
  | alreadyExists => "File exists (os error 17)"
  | notADirectory => "Not a directory (os error 20)"
  | isADirectory => "Is a directory (os error 21)"
  | nameTooLong => "File name too long (os error 36)"
  | zeroByteInName => "file name contained an unexpected NUL byte"
  | noWholeTree => "failed to create whole tree"

/-- The entries below the root, each location at most once, and the directory that relative paths
start from. -/
structure FileTree where
  entries : List (Location × Entry)
  workingDirectory : Location
  deriving Repr, Inhabited

namespace FileTree

/-- The tree with nothing but the root, where relative paths start. -/
def empty : FileTree := ⟨[], []⟩

def lookup (tree : FileTree) : Location → Option Entry
  | [] => some .directory
  | loc => tree.entries.lookup loc

/-- Puts an entry at a location, in place of what was there. -/
def put (tree : FileTree) (loc : Location) (entry : Entry) : FileTree :=
  { tree with entries := (loc, entry) :: tree.entries.filter (·.1 != loc) }

def erase (tree : FileTree) (loc : Location) : FileTree :=
  { tree with entries := tree.entries.filter (·.1 != loc) }

@[simp] theorem lookup_root (tree : FileTree) : tree.lookup [] = some .directory := rfl

theorem lookup_put_self (tree : FileTree) {loc : Location} (entry : Entry) (h : loc ≠ []) :
    (tree.put loc entry).lookup loc = some entry := by
  cases loc with
  | nil => exact absurd rfl h
  | cons name names => simp [lookup, put]

theorem lookup_erase_self (tree : FileTree) {loc : Location} (h : loc ≠ []) :
    (tree.erase loc).lookup loc = none := by
  cases loc with
  | nil => exact absurd rfl h
  | cons name names =>
    simp only [lookup, erase, List.lookup_eq_none_iff, List.mem_filter]
    rintro p ⟨-, hp⟩
    simpa using fun h => (bne_iff_ne.1 hp) h.symm

/-- Leaving out one location leaves the others where they were. -/
theorem lookup_filter_of_ne {loc other : Location} (h : other ≠ loc) (entries : List (Location × Entry)) :
    (entries.filter (·.1 != loc)).lookup other = entries.lookup other := by
  induction entries with
  | nil => rfl
  | cons e entries ih =>
    obtain ⟨place, entry⟩ := e
    by_cases hp : place = loc
    · subst hp
      have hne : (other == place) = false := by simpa using h
      simp [ih, List.lookup_cons, hne]
    · simp [hp, ih, List.lookup_cons]

theorem lookup_put_of_ne (tree : FileTree) {loc other : Location} (entry : Entry) (h : other ≠ loc) :
    (tree.put loc entry).lookup other = tree.lookup other := by
  cases other with
  | nil => rfl
  | cons name names =>
    have hne : (name :: names == loc) = false := by simpa using h
    simp [lookup, put, List.lookup_cons, hne, lookup_filter_of_ne h]

theorem lookup_erase_of_ne (tree : FileTree) {loc other : Location} (h : other ≠ loc) :
    (tree.erase loc).lookup other = tree.lookup other := by
  cases other with
  | nil => rfl
  | cons name names => simp [lookup, erase, lookup_filter_of_ne h]

/-! ## Following a path -/

/-- Longest name an entry can have, in bytes. -/
def longestName : Nat := 255

def longestPath : Nat := 4095

/-- Whether an entry can have the last name of a location. -/
def canBeNamed (loc : Location) : Bool := (loc.getLastD "").utf8ByteSize ≤ longestName

/-- Why a location holds nothing. A name that is too long is noticed when it is looked up. -/
def absence (loc : Location) : FileError := if canBeNamed loc then .notFound else .nameTooLong

/-- Puts an entry at a location that can have one. -/
def place (tree : FileTree) (loc : Location) (entry : Entry) : Except FileError FileTree :=
  if canBeNamed loc then .ok (tree.put loc entry) else .error .nameTooLong

/-- A location takes an entry exactly if it can have its name. -/
theorem place_eq_ok_iff {tree next : FileTree} {loc : Location} {entry : Entry} :
    tree.place loc entry = .ok next ↔ canBeNamed loc = true ∧ tree.put loc entry = next := by
  simp only [place]
  split <;> simp [*]

/-- Goes on from the directory `loc` over the given names. The last name need not lead anywhere. -/
def follow (tree : FileTree) (loc : Location) : List String → Except FileError Location
  | [] => .ok loc
  | name :: rest =>
    match tree.lookup loc with
    | none => .error (absence loc)
    | some (.file _) => .error .notADirectory
    | some .directory => follow tree (if name == ".." then loc.dropLast else loc ++ [name]) rest

/-- The location, if it holds a directory or need not. -/
def confirm (tree : FileTree) (loc : Location) (needsDirectory : Bool) : Except FileError Location :=
  if needsDirectory then
    match tree.lookup loc with
    | none => .error (absence loc)
    | some (.file _) => .error .notADirectory
    | some .directory => .ok loc
  else .ok loc

/-- The location that a path leads to, where something may be created. -/
def locate (tree : FileTree) (p : Path) : Except FileError Location :=
  if p.text.toList.contains (Char.ofNat 0) then .error .zeroByteInName
  else if p.text.isEmpty then .error .notFound
  else if longestPath < p.text.utf8ByteSize then .error .nameTooLong
  else match tree.follow (if p.isAbsolute then [] else tree.workingDirectory) p.names with
    | .error e => .error e
    | .ok loc => tree.confirm loc p.endsInDot

/-- The location that a path leads to, where something is expected. -/
def find (tree : FileTree) (p : Path) : Except FileError Location :=
  match tree.locate p with
  | .error e => .error e
  | .ok loc => tree.confirm loc p.endsInSlash

def entry? (tree : FileTree) (p : Path) : Option Entry :=
  match tree.find p with
  | .ok loc => tree.lookup loc
  | .error _ => none

def isDirectory (tree : FileTree) (p : Path) : Bool := tree.entry? p == some .directory

def contains (tree : FileTree) (p : Path) : Bool := (tree.entry? p).isSome

/-! ## Single operations -/

def createDirectory (tree : FileTree) (p : Path) : Except FileError FileTree :=
  match tree.locate p with
  | .error e => .error e
  | .ok loc =>
    match tree.lookup loc with
    | some _ => .error .alreadyExists
    | none => tree.place loc .directory

/-- Creates an empty file, or empties the one that is there. -/
def createFile (tree : FileTree) (p : Path) : Except FileError FileTree :=
  match tree.locate p with
  | .error e => .error e
  | .ok loc =>
    if p.endsInSlash then .error .isADirectory
    else match tree.lookup loc with
      | some .directory => .error .isADirectory
      | _ => tree.place loc (.file [])

def appendFile (tree : FileTree) (p : Path) (bytes : Bytes) : Except FileError FileTree :=
  match tree.find p with
  | .error e => .error e
  | .ok loc =>
    match tree.lookup loc with
    | none => .error (absence loc)
    | some .directory => .error .isADirectory
    | some (.file content) => .ok (tree.put loc (.file (content ++ bytes)))

/-- Moves a file, in place of the file at the new path if there is one. -/
def renameFile (tree : FileTree) (old new : Path) : Except FileError FileTree :=
  match tree.locate old, tree.locate new with
  | .error e, _ => .error e
  | _, .error e => .error e
  | .ok source, .ok target =>
    match tree.lookup source, tree.lookup target with
    | none, _ => .error (absence source)
    | some .directory, _ => .error .isADirectory
    | _, some .directory => .error .isADirectory
    | some (.file content), _ => (tree.erase source).place target (.file content)

def removeFile (tree : FileTree) (p : Path) : Except FileError FileTree :=
  match tree.find p with
  | .error e => .error e
  | .ok loc =>
    match tree.lookup loc with
    | none => .error (absence loc)
    | some .directory => .error .isADirectory
    | some (.file _) => .ok (tree.erase loc)

def contentOf (tree : FileTree) (p : Path) : Except FileError Bytes :=
  match tree.find p with
  | .error e => .error e
  | .ok loc =>
    match tree.lookup loc with
    | none => .error (absence loc)
    | some .directory => .error .isADirectory
    | some (.file content) => .ok content

/-! ## Composed operations -/

/-- Creates a directory after the directories that lead to it, `depth` levels up at most. What was
created before a failure stays. -/
def createDirectoriesUpTo : Nat → FileTree → Path → Except FileError Unit × FileTree
  | depth, tree, p =>
    if p.text.isEmpty then (.ok (), tree)
    else match tree.createDirectory p with
      | .ok tree => (.ok (), tree)
      | .error .notFound =>
        match depth, p.parent? with
        | depth + 1, some parent =>
          match createDirectoriesUpTo depth tree parent with
          | (.error e, tree) => (.error e, tree)
          | (.ok (), tree) =>
            match tree.createDirectory p with
            | .ok tree => (.ok (), tree)
            | .error e => (if tree.isDirectory p then .ok () else .error e, tree)
        | _, _ => (.error .noWholeTree, tree)
      | .error e => (if tree.isDirectory p then .ok () else .error e, tree)

/-- Creates a directory after the directories that lead to it. A directory that is already there is
fine. -/
def createDirectories (tree : FileTree) (p : Path) : Except FileError Unit × FileTree :=
  createDirectoriesUpTo (Path.segments p.text.toList).length tree p

/-- Creates a file with the given bytes, in place of the file that was there. -/
def writeFile (tree : FileTree) (p : Path) (bytes : Bytes) : Except FileError Unit × FileTree :=
  match tree.createFile p with
  | .error e => (.error e, tree)
  | .ok tree =>
    match tree.appendFile p bytes with
    | .error e => (.error e, tree)
    | .ok tree => (.ok (), tree)

/-- Writes a file after the directories that lead to it. -/
def writeWithParents (tree : FileTree) (p : Path) (bytes : Bytes) : Except FileError Unit × FileTree :=
  match p.parent? with
  | none => tree.writeFile p bytes
  | some parent =>
    match tree.createDirectories parent with
    | (.error e, tree) => (.error e, tree)
    | (.ok (), tree) => tree.writeFile p bytes

/-- Everything below the directory at a path, with the names that lead there from it. -/
def below (tree : FileTree) (p : Path) : List (Location × Entry) :=
  match tree.locate p with
  | .error _ => []
  | .ok base =>
    if tree.lookup base != some .directory then []
    else tree.entries.filterMap fun (loc, entry) =>
      if base.isPrefixOf loc && base.length < loc.length then some (loc.drop base.length, entry)
      else none

end FileTree

end EventCamera
