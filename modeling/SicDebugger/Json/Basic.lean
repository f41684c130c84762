import SicDebugger.Json.Number

/-!
# Values of the data format

The messages of the debugger and of the simulator are JSON texts. A value keeps the members of an
object in the order in which they were written, repetitions included, since it is for the reader of
a record to refuse those. A text that holds half of a surrogate pair can be skipped but not read, so
it is a value of its own kind, and so is an object one of whose keys is such a text.
-/

namespace SicDebugger

/-- A value of the data format. -/
inductive Json where
  | null
  | bool (b : Bool)
  | number (n : Number)
  | string (s : String)
  | array (items : List Json)
  | object (members : List (String × Json))
  | unreadable
deriving Repr, Inhabited

namespace Json

/-- The value of a natural number. -/
def ofNat (n : Nat) : Json := .number (.ofNat n)

/-- The value of an optional one, nothing being null. -/
def ofOption {α : Type} (encode : α → Json) : Option α → Json
  | none => .null
  | some a => encode a

/-- The value of a list. -/
def ofList {α : Type} (encode : α → Json) (xs : List α) : Json := .array (xs.map encode)

mutual
/-- Whether every part of the value can be kept: no unreadable text, no number out of range, and
containers nested at most `depth` deep. -/
def keepable (depth : Nat) : Json → Bool
  | .null | .bool _ | .string _ => true
  | .number n => n.toBinary64?.isSome
  | .unreadable => false
  | .array items => decide (0 < depth) && keepableItems (depth - 1) items
  | .object members => decide (0 < depth) && keepableMembers (depth - 1) members

/-- Whether every part of every item can be kept. -/
def keepableItems (depth : Nat) : List Json → Bool
  | [] => true
  | j :: r => keepable depth j && keepableItems depth r

/-- Whether every part of every member can be kept. -/
def keepableMembers (depth : Nat) : List (String × Json) → Bool
  | [] => true
  | (_, j) :: r => keepable depth j && keepableMembers depth r
end

end Json
end SicDebugger
