import EventCamera.Files.Path
import EventCamera.Json.Reader
/-!
# Stored types

A stored type has one written form and a reader that accepts more than that. A record is written as an
object with its fields in order; it is read from an object with its fields in any order, among unknown
members, or from an array of its fields in order. A field may stand once at most. Whether a field may
be missing is up to the record.
-/

namespace EventCamera

class Stored (α : Type) where
  store : α → JsonValue
  /-- The datum that a JSON value stands for. -/
  load? : JsonValue → Option α

export Stored (store load?)

namespace Stored

/-- Text of a datum on one line. -/
def compact {α : Type} [Stored α] (a : α) : String := (store a).compact

/-- Text of a datum with one part per line. -/
def pretty {α : Type} [Stored α] (a : α) : String := (store a).pretty

def read? (α : Type) [Stored α] (text : String) : Option α := (JsonValue.read? text).bind load?

/-! ## Plain types -/

/-- The integer of a JSON value, if it is within the bounds. -/
def boundedInt? (lo hi : Int) : JsonValue → Option Int
  | .integer i => if lo ≤ i ∧ i ≤ hi then some i else none
  | _ => none

instance : Stored UInt16 where
  store n := .integer n.toNat
  load? v := (boundedInt? 0 65535 v).map fun i => i.toNat.toUInt16

instance : Stored UInt32 where
  store n := .integer n.toNat
  load? v := (boundedInt? 0 4294967295 v).map fun i => i.toNat.toUInt32

instance : Stored UInt64 where
  store n := .integer n.toNat
  load? v := (boundedInt? 0 18446744073709551615 v).map fun i => i.toNat.toUInt64

instance : Stored Int32 where
  store n := .integer n.toInt
  load? v := (boundedInt? (-2147483648) 2147483647 v).map Int32.ofInt

instance : Stored Int64 where
  store n := .integer n.toInt
  load? v := (boundedInt? (-9223372036854775808) 9223372036854775807 v).map Int64.ofInt

instance : Stored Bool where
  store := .bool
  load?
    | .bool b => some b
    | _ => none

instance : Stored String where
  store := .string
  load?
    | .string s => some s
    | _ => none

instance : Stored Path where
  store p := .string p.text
  load? v := (load? v).map Path.mk

instance {α : Type} [Stored α] : Stored (List α) where
  store as := .array (as.map store)
  load?
    | .array vs => vs.mapM load?
    | _ => none

/-- Nothing is stored as `null`. -/
instance {α : Type} [Stored α] : Stored (Option α) where
  store
    | some a => store a
    | none => .null
  load?
    | .null => some none
    | v => (load? v).map some

/-! ## Records -/

/-- The value of the member with the given name, if there is one; more than one is an error. -/
def member? (name : String) (members : List (String × JsonValue)) : Option (Option JsonValue) :=
  match members.filter (·.1 == name) with
  | [] => some none
  | [(_, v)] => some (some v)
  | _ => none

/-- The values of a record's fields in order, where they are given. -/
def fields? (names : List String) : JsonValue → Option (List (Option JsonValue))
  | .object members => names.mapM fun name => member? name members
  | .array items =>
    if items.length ≤ names.length then
      some (items.map some ++ List.replicate (names.length - items.length) none)
    else none
  | _ => none

def required {α : Type} [Stored α] (field : Option JsonValue) : Option α := field.bind load?

/-- The datum of a field with a default. -/
def optional {α : Type} [Stored α] (default : α) : Option JsonValue → Option α
  | some v => load? v
  | none => some default

end Stored

end EventCamera
