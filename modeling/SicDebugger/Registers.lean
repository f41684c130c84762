import SicDebugger.Float48
import SicDebugger.Json.Record
import SicDebugger.Text.Split

/-!
# Registers

A snapshot of the registers carries eight numbers of 32 bits and the float register as decimal
text. Two snapshots differ in a number if it differs, and in the float register if its two values
differ as doubles, or, where one of the texts denotes none, if the texts differ. The cache keeps
the last snapshot and what changed with it.
-/

namespace SicDebugger

/-- The registers, in the order in which they are listed. -/
inductive Register where
  | A | X | L | S | T | B | SW | PC | F
deriving DecidableEq, Repr

namespace Register

/-- All registers. -/
def all : List Register := [A, X, L, S, T, B, SW, PC, F]

/-- The name of a register. -/
def name : Register → String
  | A => "A" | X => "X" | L => "L" | S => "S" | T => "T" | B => "B" | SW => "SW" | PC => "PC"
  | F => "F"

/-- The place of a register's bit in a set. -/
def place : Register → Nat
  | A => 0 | X => 1 | L => 2 | S => 3 | T => 4 | B => 5 | SW => 6 | PC => 7 | F => 8

/-- The register of a name. -/
def ofName? (s : String) : Option Register := all.find? (·.name == s)

end Register

/-- A set of registers in 16 bits. The bits above the ninth stand for no register and are kept. -/
structure RegisterSet where
  bits : UInt16
deriving DecidableEq, Repr, Inhabited

namespace RegisterSet

/-- The set without registers. -/
def empty : RegisterSet := ⟨0⟩

/-- Whether the set has the register. -/
def contains (s : RegisterSet) (r : Register) : Bool := s.bits.toNat.testBit r.place

/-- The set of the registers that a condition picks. -/
def ofPred (p : Register → Bool) : RegisterSet :=
  ⟨UInt16.ofNat (Register.all.foldl (fun bits r => if p r then bits + Nat.pow 2 r.place else bits) 0)⟩

/-- The union of two sets. -/
def union (s t : RegisterSet) : RegisterSet := ⟨s.bits ||| t.bits⟩

/-- The names of the registers, and the other bits as one hexadecimal number. -/
def toText (s : RegisterSet) : String :=
  let names := (Register.all.filter s.contains).map Register.name
  let others := s.bits.toNat / Nat.pow 2 9 * Nat.pow 2 9
  " | ".intercalate (names ++ if others = 0 then [] else ["0x" ++ Text.hexPlain others])

/-- Reads one part: a name, or bits in hexadecimal. -/
def ofPart? (s : List Char) : Option RegisterSet :=
  match s with
  | [] => none
  | '0' :: 'x' :: digits =>
    (Text.readNumeral? 16 UInt16.size digits).map fun n => ⟨UInt16.ofNat n⟩
  | s => (Register.ofName? (String.ofList s)).map fun r => ofPred (· == r)

/-- Reads a set. A blank text is the empty one. -/
def ofText? (text : String) : Option RegisterSet :=
  if (Text.trimChars text.toList).isEmpty then some empty
  else
    ((Text.split '|' text.toList).mapM fun p => ofPart? (Text.trimChars p)).map fun sets =>
      sets.foldl union empty

/-- The value of a set. -/
def toJson (s : RegisterSet) : Json := .string s.toText

/-- Reads a set from its value. -/
def ofJson? (j : Json) : Option RegisterSet := j.string?.bind ofText?

end RegisterSet

/-- The contents of the registers. -/
structure RegisterSnapshot where
  a : UInt32 := 0
  x : UInt32 := 0
  l : UInt32 := 0
  s : UInt32 := 0
  t : UInt32 := 0
  b : UInt32 := 0
  sw : UInt32 := 0
  pc : UInt32 := 0
  f : String := "0.0"
deriving DecidableEq, Repr, Inhabited

namespace RegisterSnapshot

/-- The 48-bit pattern of the float register. -/
def floatHex (r : RegisterSnapshot) : Except Error String := Float48.hexOfDecimal r.f

/-- Whether two texts of the float register count as different. -/
def floatDiffers (f g : String) : Bool :=
  match Binary64.ofText? (Text.trim f), Binary64.ofText? (Text.trim g) with
  | some x, some y => x.bits != y.bits
  | _, _ => f != g

/-- Whether two snapshots differ in a register. -/
def differs (p q : RegisterSnapshot) : Register → Bool
  | .A => p.a != q.a
  | .X => p.x != q.x
  | .L => p.l != q.l
  | .S => p.s != q.s
  | .T => p.t != q.t
  | .B => p.b != q.b
  | .SW => p.sw != q.sw
  | .PC => p.pc != q.pc
  | .F => floatDiffers p.f q.f

/-- The registers in which two snapshots differ. -/
def diff (p q : RegisterSnapshot) : RegisterSet := .ofPred (p.differs q)

/-- The value of a snapshot. -/
def toJson (r : RegisterSnapshot) : Json :=
  let word := fun (w : UInt32) => Json.ofNat w.toNat
  .object [("A", word r.a), ("X", word r.x), ("L", word r.l), ("S", word r.s), ("T", word r.t),
    ("B", word r.b), ("SW", word r.sw), ("PC", word r.pc), ("F", .string r.f)]

/-- Reads the float register: a text as it is, a number as its shortest text, null as zero. -/
def floatOfJson? : Json → Option String
  | .string s => some s
  | .null => some "0.0"
  | .number n => n.toBinary64?.map Binary64.toText
  | _ => none

/-- Reads a snapshot. A register that is left away is zero. -/
def ofJson? (j : Json) : Option RegisterSnapshot := do
  let r ← j.record? 9
  let word := fun (key : String) (place : Nat) => r.defaulted? [key] place 0 Json.uint32?
  return {
    a := ← word "A" 0
    x := ← word "X" 1
    l := ← word "L" 2
    s := ← word "S" 3
    t := ← word "T" 4
    b := ← word "B" 5
    sw := ← word "SW" 6
    pc := ← word "PC" 7
    f := ← r.defaulted? ["F"] 8 "0.0" floatOfJson? }

end RegisterSnapshot

/-- The last snapshot and the registers that changed with it. -/
structure RegisterCache where
  snapshot : Option RegisterSnapshot := none
  changed : RegisterSet := .empty
deriving DecidableEq, Repr, Inhabited

namespace RegisterCache

/-- Takes a new snapshot. Nothing counts as changed in the first one. -/
def replace (c : RegisterCache) (next : RegisterSnapshot) : RegisterCache where
  snapshot := some next
  changed := c.snapshot.elim .empty (·.diff next)

/-- Forgets the snapshot and what changed with it. -/
def clear (_ : RegisterCache) : RegisterCache := {}

/-- The program counter of the last snapshot. -/
def pc (c : RegisterCache) : Option UInt32 := c.snapshot.map (·.pc)

end RegisterCache
end SicDebugger
