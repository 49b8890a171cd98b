import EventCamera.Json.Value
/-!
# Reading JSON

A strict reader: blanks are space, tab and line ends; there are no comments, no trailing commas, no
leading zeros and nothing after the value. Strings hold no raw control characters.

The reader is a recursive descent over the characters. Its fuel bounds the nesting of calls; twice
the length of the text is always enough, as two calls consume at least one character.
-/

namespace EventCamera

namespace JsonValue

/-- Whether the character may stand between parts. -/
def isSpace (c : Char) : Bool := c == ' ' || c == '\t' || c == '\n' || c == '\r'

def skipSpace (cs : List Char) : List Char := cs.dropWhile isSpace

/-! ## Strings -/

/-- The value of a hexadecimal digit of either case. -/
def hexValue? (c : Char) : Option Nat :=
  if '0' ≤ c ∧ c ≤ '9' then some (c.toNat - 48)
  else if 'a' ≤ c ∧ c ≤ 'f' then some (c.toNat - 87)
  else if 'A' ≤ c ∧ c ≤ 'F' then some (c.toNat - 55)
  else none

def hexUnit? (a b c d : Char) : Option Nat :=
  match hexValue? a, hexValue? b, hexValue? c, hexValue? d with
  | some a, some b, some c, some d => some (((a * 16 + b) * 16 + c) * 16 + d)
  | _, _, _, _ => none

def simpleEscape? : Char → Option Char
  | '"' => some '"'
  | '\\' => some '\\'
  | '/' => some '/'
  | 'b' => some (Char.ofNat 8)
  | 'f' => some (Char.ofNat 12)
  | 'n' => some '\n'
  | 'r' => some '\r'
  | 't' => some '\t'
  | _ => none

/-- Reads the inside of a string as UTF-16 units and characters: an escape of four digits gives its
unit, anything else its character. Gives what follows the closing quote. -/
def readUnits : List Char → Option (List (Nat ⊕ Char) × List Char)
  | [] => none
  | '"' :: rest => some ([], rest)
  | '\\' :: 'u' :: a :: b :: c :: d :: rest =>
    match hexUnit? a b c d with
    | some unit => (readUnits rest).map fun (units, rest) => (.inl unit :: units, rest)
    | none => none
  | '\\' :: e :: rest =>
    match simpleEscape? e with
    | some c => (readUnits rest).map fun (units, rest) => (.inr c :: units, rest)
    | none => none
  | c :: rest =>
    if c.toNat < 32 ∨ c = '\\' then none
    else (readUnits rest).map fun (units, rest) => (.inr c :: units, rest)

/-- Joins surrogate pairs. A unit that is half of a pair stands for no character. -/
def joinUnits : List (Nat ⊕ Char) → Option (List Char)
  | [] => some []
  | .inr c :: rest => (joinUnits rest).map (c :: ·)
  | .inl high :: .inl low :: rest =>
    if 0xd800 ≤ high ∧ high < 0xdc00 ∧ 0xdc00 ≤ low ∧ low < 0xe000 then
      (joinUnits rest).map (Char.ofNat (0x10000 + (high - 0xd800) * 0x400 + (low - 0xdc00)) :: ·)
    else if 0xd800 ≤ high ∧ high < 0xe000 then none
    else (joinUnits (.inl low :: rest)).map (Char.ofNat high :: ·)
  | .inl unit :: rest =>
    if 0xd800 ≤ unit ∧ unit < 0xe000 then none else (joinUnits rest).map (Char.ofNat unit :: ·)

/-- Reads a string after its opening quote. Inside, `none` stands for a text with half of a
surrogate pair. -/
def readString (cs : List Char) : Option (Option String × List Char) :=
  (readUnits cs).map fun (units, rest) => ((joinUnits units).map String.ofList, rest)

/-! ## Numbers -/

def splitDigits (cs : List Char) : Option (List Char × List Char) :=
  match cs.takeWhile Char.isDigit with
  | [] => none
  | ds => some (ds, cs.dropWhile Char.isDigit)

/-- Splits off the digits of an integer, which has no zero in front. -/
def splitInteger (cs : List Char) : Option (List Char × List Char) :=
  match splitDigits cs with
  | some ('0' :: _ :: _, _) => none
  | r => r

/-- Skips a fraction, if there is one. Tells whether there was. -/
def skipFraction : List Char → Option (Bool × List Char)
  | '.' :: rest => (splitDigits rest).map fun (_, rest) => (true, rest)
  | cs => some (false, cs)

/-- Skips an exponent, if there is one. Tells whether there was. -/
def skipExponent : List Char → Option (Bool × List Char)
  | 'e' :: rest | 'E' :: rest =>
    let digits := match rest with
      | '+' :: rest | '-' :: rest => rest
      | rest => rest
    (splitDigits digits).map fun (_, rest) => (true, rest)
  | cs => some (false, cs)

def readNumber (negative : Bool) (cs : List Char) : Option (JsonValue × List Char) :=
  match splitInteger cs with
  | none => none
  | some (digits, rest) =>
    match skipFraction rest with
    | none => none
    | some (fraction, rest) =>
      match skipExponent rest with
      | none => none
      | some (exponent, rest) =>
        let n := Nat.ofDigitChars 10 digits 0
        if fraction || exponent || (negative && n == 0) then some (foreign, rest)
        else some (integer (if negative then -(n : Int) else n), rest)

/-! ## Values -/

/-- Puts a member in front of the others; a name with half of a surrogate pair spoils them all. -/
def consMember (name : Option String) (value : JsonValue) :
    Option (List (String × JsonValue)) → Option (List (String × JsonValue)) :=
  fun members => match name, members with
    | some name, some members => some ((name, value) :: members)
    | _, _ => none

def ofMembers : Option (List (String × JsonValue)) → JsonValue
  | some members => object members
  | none => foreign

mutual

/-- Reads a value that starts here. -/
def readValue : Nat → List Char → Option (JsonValue × List Char)
  | 0, _ => none
  | fuel + 1, cs =>
    match cs with
    | 'n' :: 'u' :: 'l' :: 'l' :: rest => some (null, rest)
    | 't' :: 'r' :: 'u' :: 'e' :: rest => some (bool true, rest)
    | 'f' :: 'a' :: 'l' :: 's' :: 'e' :: rest => some (bool false, rest)
    | '"' :: rest => (readString rest).map fun (s, rest) => ((s.map string).getD foreign, rest)
    | '-' :: rest => readNumber true rest
    | '[' :: rest =>
      match skipSpace rest with
      | ']' :: rest => some (array [], rest)
      | rest => (readItems fuel rest).map fun (items, rest) => (array items, rest)
    | '\x7b' :: rest =>
      match skipSpace rest with
      | '\x7d' :: rest => some (object [], rest)
      | rest => (readMembers fuel rest).map fun (members, rest) => (ofMembers members, rest)
    | cs => readNumber false cs

/-- Reads one item or more, up to the closing bracket. -/
def readItems : Nat → List Char → Option (List JsonValue × List Char)
  | 0, _ => none
  | fuel + 1, cs =>
    match readValue fuel cs with
    | none => none
    | some (item, rest) =>
      match skipSpace rest with
      | ']' :: rest => some ([item], rest)
      | ',' :: rest => (readItems fuel (skipSpace rest)).map fun (items, rest) => (item :: items, rest)
      | _ => none

/-- Reads one member or more, up to the closing brace. -/
def readMembers : Nat → List Char → Option (Option (List (String × JsonValue)) × List Char)
  | 0, _ => none
  | fuel + 1, cs =>
    match cs with
    | '"' :: rest =>
      match readString rest with
      | none => none
      | some (name, rest) =>
        match skipSpace rest with
        | ':' :: rest =>
          match readValue fuel (skipSpace rest) with
          | none => none
          | some (value, rest) =>
            match skipSpace rest with
            | '\x7d' :: rest => some (consMember name value (some []), rest)
            | ',' :: rest =>
              (readMembers fuel (skipSpace rest)).map fun (members, rest) =>
                (consMember name value members, rest)
            | _ => none
        | _ => none
    | _ => none

end

/-- Reads a text that holds one value and nothing else. -/
def readChars (cs : List Char) : Option JsonValue :=
  match readValue (2 * cs.length + 2) (skipSpace cs) with
  | some (v, rest) => if (skipSpace rest).isEmpty then some v else none
  | none => none

/-- Reads a text that holds one value and nothing else. -/
def read? (s : String) : Option JsonValue := readChars s.toList

end JsonValue

end EventCamera
