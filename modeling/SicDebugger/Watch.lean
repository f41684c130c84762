import SicDebugger.AddressRange
import SicDebugger.Json.Record
import SicDebugger.Json.Writer
import Std.Data.ExtTreeMap

/-!
# Watched variables

The assembler declares variables with an address, a data type, and an element size and count that
it may leave out. The registry holds the declarations of the loaded program in their order and,
keyed by address, the bytes last read for them; bytes for an address that nothing declares are
turned away.
-/

namespace SicDebugger

/-- A declared variable. -/
structure WatchVariable where
  name : String
  address : UInt32
  dataType : String := ""
  declaredSize : Option UInt32 := none
  declaredCount : Option UInt32 := none
deriving DecidableEq, Repr, Inhabited

namespace WatchVariable

/-- The text with the letters of ASCII in upper case. -/
def upper (s : String) : String := String.ofList (s.toList.map Char.toUpper)

/-- The element size that goes with a data type, whatever its case. -/
def usualSize (dataType : String) : UInt32 :=
  match upper dataType with
  | "WORD" => 3
  | "FLOAT" => 6
  | _ => 1

/-- The number of bytes of one element. -/
def elementSize (v : WatchVariable) : UInt32 := v.declaredSize.getD (usualSize v.dataType)

/-- The number of elements. -/
def elementCount (v : WatchVariable) : UInt32 := v.declaredCount.getD 1

/-- The addresses of all elements, if there are any and they all exist. -/
def range? (v : WatchVariable) : Option AddressRange :=
  AddressRange.ofLength? v.address (v.elementSize.toNat * v.elementCount.toNat)

/-- Cuts into runs of `more + 1` bytes, the last of which may be short. -/
def runs (more : Nat) : List UInt8 → List (List UInt8)
  | [] => []
  | b :: r => (b :: r.take more) :: runs more (r.drop more)
termination_by s => s.length
decreasing_by simp only [List.length_drop, List.length_cons]; omega

/-- The number that bytes denote, the highest first, modulo `2 ^ 64`. -/
def bigEndian (bytes : List UInt8) : UInt64 := bytes.foldl (fun n b => n * 256 + b.toUInt64) 0

/-- The values of the elements that the bytes hold. An element size of zero counts as one. -/
def elements (v : WatchVariable) (bytes : List UInt8) : List UInt64 :=
  ((runs (v.elementSize.toNat - 1) bytes).take v.elementCount.toNat).map bigEndian

/-- The value of a declaration. -/
def toJson (v : WatchVariable) : Json :=
  .object [("name", .string v.name), ("address", .ofNat v.address.toNat),
    ("dataType", .string v.dataType),
    ("elementSize", .ofOption (fun n : UInt32 => .ofNat n.toNat) v.declaredSize),
    ("elementCount", .ofOption (fun n : UInt32 => .ofNat n.toNat) v.declaredCount)]

/-- Reads a declaration. -/
def ofJson? (j : Json) : Option WatchVariable := do
  let r ← j.record? 5
  return {
    name := ← r.required? ["name"] 0 Json.string?
    address := ← r.required? ["address"] 1 Json.uint32?
    dataType := ← r.nullable? ["dataType"] 2 "" Json.string?
    declaredSize := ← r.defaulted? ["elementSize"] 3 none (Json.optional? Json.uint32?)
    declaredCount := ← r.defaulted? ["elementCount"] 4 none (Json.optional? Json.uint32?) }

end WatchVariable

/-- Bytes as pairs of hexadecimal digits. -/
def hexBytes (bytes : List UInt8) : String :=
  " ".intercalate (bytes.map fun b => String.ofList (Text.hexFixed 2 b.toNat))

/-- Bytes as printable characters of ASCII, a point standing for any other. -/
def printableBytes (bytes : List UInt8) : String :=
  " ".intercalate (bytes.map fun b =>
    if 32 ≤ b.toNat ∧ b.toNat ≤ 126 then String.singleton (Char.ofNat b.toNat) else ".")

/-- A variable with the file that declares it. -/
structure WatchEntry where
  file : String
  declared : WatchVariable
deriving DecidableEq, Repr, Inhabited

/-- A memory read that refreshes the variables at an address. -/
structure WatchRead where
  address : UInt32
  range : AddressRange
deriving DecidableEq, Repr

/-- A variable as a view shows it. -/
structure WatchView where
  file : String
  name : String
  address : UInt32
  dataType : String
  elementSize : UInt32
  elementCount : UInt32
  value : Option (List UInt8)
deriving DecidableEq, Repr, Inhabited

namespace WatchView

/-- The value of a list of bytes. -/
def bytesToJson (bytes : List UInt8) : Json := .ofList (fun b : UInt8 => .ofNat b.toNat) bytes

/-- The value of a variable as it is shown. -/
def toJson (v : WatchView) : Json :=
  .object [("file", .string v.file), ("name", .string v.name),
    ("address", .ofNat v.address.toNat), ("dataType", .string v.dataType),
    ("elementSize", .ofNat v.elementSize.toNat), ("elementCount", .ofNat v.elementCount.toNat),
    ("value", .ofOption bytesToJson v.value)]

/-- Reads a variable as it is shown. -/
def ofJson? (j : Json) : Option WatchView := do
  let r ← j.record? 7
  return {
    file := ← r.required? ["file"] 0 Json.string?
    name := ← r.required? ["name"] 1 Json.string?
    address := ← r.required? ["address"] 2 Json.uint32?
    dataType := ← r.required? ["dataType"] 3 Json.string?
    elementSize := ← r.required? ["elementSize"] 4 Json.uint32?
    elementCount := ← r.required? ["elementCount"] 5 Json.uint32?
    value := ← r.optional? ["value"] 6 (Json.list? Json.uint8?) }

end WatchView

/-- The declarations of the loaded program and the bytes read for them. -/
structure WatchRegistry where
  entries : List WatchEntry := []
  values : Std.ExtTreeMap UInt32 (List UInt8) := ∅
deriving Repr, Inhabited

namespace WatchRegistry

/-- Adds a declaration at the end. -/
def add (w : WatchRegistry) (e : WatchEntry) : WatchRegistry :=
  { w with entries := w.entries ++ [e] }

/-- Takes other declarations, without bytes. -/
def replace (_ : WatchRegistry) (entries : List WatchEntry) : WatchRegistry := { entries }

/-- Drops all. -/
def clear (w : WatchRegistry) : WatchRegistry := w.replace []

/-- Whether a variable is declared at the address. -/
def declares (w : WatchRegistry) (address : UInt32) : Bool :=
  w.entries.any (·.declared.address == address)

/-- One read for each variable that has bytes. -/
def reads (w : WatchRegistry) : List WatchRead :=
  w.entries.filterMap fun e =>
    e.declared.range?.map fun range => ⟨e.declared.address, range⟩

/-- Keeps bytes for an address that a variable is declared at. -/
def store (w : WatchRegistry) (address : UInt32) (bytes : List UInt8) : WatchRegistry :=
  if w.declares address then { w with values := w.values.insert address bytes } else w

/-- The bytes last kept for an address. -/
def valueAt? (w : WatchRegistry) (address : UInt32) : Option (List UInt8) := w.values[address]?

/-- The variables as a view shows them. -/
def views (w : WatchRegistry) : List WatchView :=
  w.entries.map fun e => {
    file := e.file
    name := e.declared.name
    address := e.declared.address
    dataType := e.declared.dataType
    elementSize := e.declared.elementSize
    elementCount := e.declared.elementCount
    value := w.valueAt? e.declared.address }

end WatchRegistry
end SicDebugger
