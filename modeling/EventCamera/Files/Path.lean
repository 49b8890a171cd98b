/-!
# Paths

A path is kept as it was written, because it is shown to the operator; `names` gives what it means.
Empty names and `.` mean nothing, so `a//b/./c` and `a/b/c` lead to the same place.
-/

namespace EventCamera

structure Path where
  text : String
  deriving DecidableEq, Repr, Inhabited

namespace Path

/-- The pieces between the slashes of a text. -/
def segments : List Char → List (List Char)
  | [] => [[]]
  | c :: cs =>
    if c = '/' then [] :: segments cs
    else match segments cs with
      | [] => [[c]]
      | s :: ss => (c :: s) :: ss

def joinSegments (ss : List (List Char)) : List Char := ['/'].intercalate ss

def isAbsolute (p : Path) : Bool := p.text.toList.head? == some '/'

def endsInSlash (p : Path) : Bool := p.text.toList.getLast? == some '/'

def lastPiece (p : Path) : List Char := ((segments p.text.toList).filter (· != [])).getLastD []

def endsInDot (p : Path) : Bool := p.lastPiece == ['.']

/-- The path `q` as seen from `p`. An absolute path stays as it is; an empty one leaves a slash. -/
def join (p q : Path) : Path :=
  if q.isAbsolute || p.text.isEmpty then q
  else if p.endsInSlash then ⟨p.text ++ q.text⟩
  else ⟨p.text ++ "/" ++ q.text⟩

def child (p : Path) (name : String) : Path := p.join ⟨name⟩

/-- The names to follow, one directory after the other. -/
def names (p : Path) : List String :=
  ((segments p.text.toList).filter fun s => s != [] && s != ['.']).map String.ofList

/-- Cuts off the pieces at the end that name nothing. A leading `.` counts as a name. -/
def dropBlankEnd (ss : List (List Char)) : List (List Char) :=
  match ss.reverse.dropWhile fun s => s == [] || s == ['.'] with
  | [] => if ss.head? == some ['.'] then [['.']] else []
  | rest => rest.reverse

/-- The path without its last name; a root and the empty path have none. -/
def parent? (p : Path) : Option Path :=
  match dropBlankEnd (segments p.text.toList) with
  | [] => none
  | ss =>
    match dropBlankEnd ss.dropLast with
    | [] => some ⟨if p.isAbsolute then "/" else ""⟩
    | rest => some ⟨String.ofList (joinSegments rest)⟩

/-- A name with what follows its last dot replaced. A dot in front is part of the name. -/
def replaceExtension (ext name : List Char) : List Char :=
  let afterDot := name.reverse.takeWhile (· != '.')
  let stem := (name.reverse.drop (afterDot.length + 1)).reverse
  (if stem.isEmpty then name else stem) ++ '.' :: ext

/-- The path with the extension of its last name replaced. -/
def withExtension (p : Path) (ext : String) : Path :=
  let ss := segments p.text.toList
  match ss.getLast? with
  | some name =>
    ⟨String.ofList (joinSegments (ss.dropLast ++ [replaceExtension ext.toList name]))⟩
  | none => p

end Path

end EventCamera
