import SicDebugger.Json.Reader

/-!
# Reading records out of values

A record is an object with its fields under their keys, unknown keys being skipped and a known key
refused when it comes twice, or an array of its fields in order. For each field a slot tells what
was written for it, and the four readings of a slot are the four ways in which a field may be left
out: not at all, by leaving it away, by leaving it away or writing null, or as an optional value.
-/

namespace SicDebugger

namespace Json

/-- A record before its fields are read. -/
inductive Record where
  | keyed (members : List (String × Json))
  | listed (items : List Json)
deriving Repr, Inhabited

/-- The record of at most `arity` fields that a value is. -/
def record? (arity : Nat) : Json → Option Record
  | .object members => some (.keyed members)
  | .array items => if items.length ≤ arity then some (.listed items) else none
  | _ => none

/-- What is written for a field. A field left away from an array is told from one left away from an
object. -/
inductive Slot where
  | missing (listed : Bool)
  | given (j : Json)
deriving Repr, Inhabited

/-- What the record has for the field with the given keys and place, or nothing where a key comes
twice. -/
def Record.slot? (r : Record) (keys : List String) (place : Nat) : Option Slot :=
  match r with
  | .listed items => some ((items[place]?).elim (.missing true) .given)
  | .keyed members =>
    match members.filter fun m => keys.contains m.1 with
    | [] => some (.missing false)
    | [m] => some (.given m.2)
    | _ => none

/-- Reads a field that must be there. -/
def Record.required? {α : Type} (r : Record) (keys : List String) (place : Nat)
    (read : Json → Option α) : Option α :=
  match r.slot? keys place with
  | some (.given j) => read j
  | _ => none

/-- Reads a field that may be left away. -/
def Record.defaulted? {α : Type} (r : Record) (keys : List String) (place : Nat)
    (default : α) (read : Json → Option α) : Option α :=
  match r.slot? keys place with
  | some (.given j) => read j
  | some (.missing _) => some default
  | none => none

/-- Reads a field that may be left away or null. -/
def Record.nullable? {α : Type} (r : Record) (keys : List String) (place : Nat)
    (default : α) (read : Json → Option α) : Option α :=
  r.defaulted? keys place default fun
    | .null => some default
    | j => read j

/-- Reads an optional value. -/
def optional? {α : Type} (read : Json → Option α) : Json → Option (Option α)
  | .null => some none
  | j => (read j).map some

/-- Reads an optional field. An object may leave it away, an array may not. -/
def Record.optional? {α : Type} (r : Record) (keys : List String) (place : Nat)
    (read : Json → Option α) : Option (Option α) :=
  match r.slot? keys place with
  | some (.given j) => Json.optional? read j
  | some (.missing false) => some none
  | _ => none

/-! ## Single values -/

/-- The truth value. -/
def bool? : Json → Option Bool
  | .bool b => some b
  | _ => none

/-- The text. -/
def string? : Json → Option String
  | .string s => some s
  | _ => none

/-- The natural number below `bound`. -/
def nat? (bound : Nat) : Json → Option Nat
  | .number n => n.toNat?.filter (· < bound)
  | _ => none

/-- The number of eight bits. -/
def uint8? (j : Json) : Option UInt8 := (nat? UInt8.size j).map UInt8.ofNat

/-- The number of 32 bits. -/
def uint32? (j : Json) : Option UInt32 := (nat? UInt32.size j).map UInt32.ofNat

/-- The number of 64 bits. -/
def uint64? (j : Json) : Option UInt64 := (nat? UInt64.size j).map UInt64.ofNat

/-- The double. -/
def double? : Json → Option Binary64
  | .number n => n.toBinary64?
  | _ => none

/-- The list of the items. -/
def list? {α : Type} (read : Json → Option α) : Json → Option (List α)
  | .array items => items.mapM read
  | _ => none

/-- The members in their order. -/
def members? {α : Type} (read : Json → Option α) : Json → Option (List (String × α))
  | .object members => members.mapM fun (k, j) => (read j).map (k, ·)
  | _ => none

/-- The name of a choice without content: a text, or an object with null under the name. In a part
that was kept before it is read, an empty object stands for no content as well. -/
def choice? (kept : Bool) : Json → Option String
  | .string s => some s
  | .object [(s, .null)] => some s
  | .object [(s, .object [])] => if kept then some s else none
  | _ => none

/-- Splits a tagged record into its tag and what is left of it. In an object the tag stands under
the key `type`, in an array it comes first. -/
def tagged? : Json → Option (String × Json)
  | .object members =>
    match members.filter fun m => m.1 = "type" with
    | [(_, .string tag)] => some (tag, .object (members.filter fun m => m.1 ≠ "type"))
    | _ => none
  | .array (.string tag :: rest) => some (tag, .array rest)
  | _ => none

/-- Whether what is left of a tagged record has no fields to read: an object may have any. -/
def fieldless : Json → Bool
  | .object _ => true
  | .array [] => true
  | _ => false

end Json
end SicDebugger
