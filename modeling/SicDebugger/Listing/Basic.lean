import SicDebugger.Json.Record
import SicDebugger.Json.Writer
import SicDebugger.Text.Blank
import SicDebugger.Text.Numeral

/-!
# Listings

The assembler lists a source file row by row. A row with code is the instruction at its address; a
directive or a comment has an address at most, and is never executed.
-/

namespace SicDebugger

/-- One row of a listing. -/
structure ListingRow where
  addressHex : String := ""
  rawCodeHex : String := ""
  rawCodeBinary : String := ""
  label : String := ""
  instr : String := ""
  instrHex : String := ""
  instrBin : String := ""
  nixbpe : String := ""
  operand : String := ""
  comment : String := ""
  isCommentRow : Bool := false
deriving DecidableEq, Repr, Inhabited

namespace ListingRow

/-- Drops one mark `0x` or `0X` from the front. -/
def dropMark : List Char → List Char
  | '0' :: 'x' :: r => r
  | '0' :: 'X' :: r => r
  | s => s

/-- The address of the row. -/
def address? (r : ListingRow) : Option UInt32 :=
  (Text.readNumeral? 16 UInt32.size (dropMark (Text.trimChars r.addressHex.toList))).map UInt32.ofNat

/-- Whether the row has code. -/
def hasCode (r : ListingRow) : Bool := !(Text.trimChars r.rawCodeHex.toList).isEmpty

/-- Whether the row is the instruction at the address. -/
def executesAt (r : ListingRow) (pc : UInt32) : Bool := r.hasCode && r.address? == some pc

/-- The value of a row. -/
def toJson (r : ListingRow) : Json :=
  .object [("addressHex", .string r.addressHex), ("rawCodeHex", .string r.rawCodeHex),
    ("rawCodeBinary", .string r.rawCodeBinary), ("label", .string r.label),
    ("instr", .string r.instr), ("instrHex", .string r.instrHex),
    ("instrBin", .string r.instrBin), ("nixbpe", .string r.nixbpe),
    ("operand", .string r.operand), ("comment", .string r.comment),
    ("isCommentRow", .bool r.isCommentRow)]

/-- Reads a row. A text left away or null is empty; the mark of a comment row may only be left
away. -/
def ofJson? (j : Json) : Option ListingRow := do
  let r ← j.record? 11
  let text := fun (key : String) (place : Nat) => r.nullable? [key] place "" Json.string?
  return {
    addressHex := ← text "addressHex" 0
    rawCodeHex := ← text "rawCodeHex" 1
    rawCodeBinary := ← text "rawCodeBinary" 2
    label := ← text "label" 3
    instr := ← text "instr" 4
    instrHex := ← text "instrHex" 5
    instrBin := ← text "instrBin" 6
    nixbpe := ← text "nixbpe" 7
    operand := ← text "operand" 8
    comment := ← text "comment" 9
    isCommentRow := ← r.defaulted? ["isCommentRow"] 10 false Json.bool? }

end ListingRow

/-- The rows of a source file. -/
structure Listing where
  file : String
  rows : List ListingRow
deriving DecidableEq, Repr, Inhabited

namespace Listing

/-- The first row that is the instruction at the address. -/
def pcRow? (l : Listing) (pc : UInt32) : Option Nat := l.rows.findIdx? (·.executesAt pc)

/-- Whether a row is the instruction at the address. -/
def containsPc (l : Listing) (pc : UInt32) : Bool := (l.pcRow? pc).isSome

/-- Whether a row of the number is the instruction at the address. -/
def executesAt (l : Listing) (row : UInt64) (pc : UInt32) : Bool :=
  l.rows[row.toNat]?.any (·.executesAt pc)

end Listing
end SicDebugger
