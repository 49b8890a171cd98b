import EventCamera.Text.Decimal
/-!
# JSON values and their text

The values that stored data is made of, and two ways to write them: compact, and pretty with two
spaces per level. Members keep their order.

Well-formed text can stand for things that no stored datum is made of: numbers with a fraction or an
exponent, the number `-0`, and strings with half of a surrogate pair. They are read as `foreign`, so
that they can be skipped where anything may stand, and are never written.
-/

namespace EventCamera

inductive JsonValue where
  | null
  | bool (b : Bool)
  | integer (i : Int)
  | string (s : String)
  | array (items : List JsonValue)
  | object (members : List (String × JsonValue))
  /-- Well-formed text that no stored datum is made of. -/
  | foreign
  deriving Repr, Inhabited

namespace JsonValue

/-- The lower-case hexadecimal digit of a number below sixteen. -/
def hexDigit (n : Nat) : Char := if n < 10 then Char.ofNat (48 + n) else Char.ofNat (87 + n)

/-- A character as it stands inside a string: quote, backslash and control characters are escaped. -/
def escape (c : Char) : List Char :=
  if c = '"' then ['\\', '"']
  else if c = '\\' then ['\\', '\\']
  else if c = '\n' then ['\\', 'n']
  else if c = '\r' then ['\\', 'r']
  else if c = '\t' then ['\\', 't']
  else if c = Char.ofNat 8 then ['\\', 'b']
  else if c = Char.ofNat 12 then ['\\', 'f']
  else if c.toNat < 32 then ['\\', 'u', '0', '0', hexDigit (c.toNat / 16), hexDigit (c.toNat % 16)]
  else [c]

def quoted (s : String) : List Char := '"' :: s.toList.flatMap escape ++ ['"']

def integerText (i : Int) : List Char :=
  if i < 0 then '-' :: Decimal.digits i.natAbs else Decimal.digits i.natAbs

/-- How the parts of arrays and objects are set off. -/
structure Layout where
  /-- What stands before each part, given its level. -/
  before : Nat → List Char
  /-- What stands between a name and its value. -/
  colon : List Char

/-- Nothing but what is needed. -/
def Layout.compact : Layout := ⟨fun _ => [], [':']⟩

/-- Each part on a line of its own, two spaces per level. -/
def Layout.pretty : Layout := ⟨fun level => '\n' :: List.replicate (2 * level) ' ', [':', ' ']⟩

mutual

/-- Text of a value at a level of nesting. -/
def write (l : Layout) (level : Nat) : JsonValue → List Char
  | null => ['n', 'u', 'l', 'l']
  | bool true => ['t', 'r', 'u', 'e']
  | bool false => ['f', 'a', 'l', 's', 'e']
  | integer i => integerText i
  | string s => quoted s
  | array [] => ['[', ']']
  | array (item :: items) =>
    '[' :: l.before (level + 1) ++ write l (level + 1) item ++ writeItems l level items
  | object [] => ['\x7b', '\x7d']
  | object ((name, value) :: members) =>
    '\x7b' :: l.before (level + 1) ++ quoted name ++ l.colon ++ write l (level + 1) value ++
      writeMembers l level members
  | foreign => ['n', 'u', 'l', 'l']

/-- Text of the items after the first, up to the closing bracket. -/
def writeItems (l : Layout) (level : Nat) : List JsonValue → List Char
  | [] => l.before level ++ [']']
  | item :: items =>
    ',' :: l.before (level + 1) ++ write l (level + 1) item ++ writeItems l level items

/-- Text of the members after the first, up to the closing brace. -/
def writeMembers (l : Layout) (level : Nat) : List (String × JsonValue) → List Char
  | [] => l.before level ++ ['\x7d']
  | (name, value) :: members =>
    ',' :: l.before (level + 1) ++ quoted name ++ l.colon ++ write l (level + 1) value ++
      writeMembers l level members

end

def compact (v : JsonValue) : String := String.ofList (write .compact 0 v)

def pretty (v : JsonValue) : String := String.ofList (write .pretty 0 v)

end JsonValue

end EventCamera
