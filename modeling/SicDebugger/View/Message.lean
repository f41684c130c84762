import SicDebugger.Session
import SicDebugger.View.Request

/-!
# Messages to the views

The debugger tells its views what has changed, one part of the picture at a time, and a new view the
whole picture at once: the execution state, the registers, the listings, the variables, the memory
window and the diagnostics.
-/

namespace SicDebugger

/-- A listing as a view shows it: its breakpoints, and the row at the program counter. -/
structure ListingView where
  file : String
  rows : List ListingRow
  breakpoints : List UInt64
  pcRow : Option Nat
deriving DecidableEq, Repr, Inhabited

/-- What the debugger tells a view. -/
inductive ViewMessage where
  | state (state : ExecutionState)
  | registers (registers : Option RegisterSnapshot) (floatHex : Option String)
      (changed : RegisterSet)
  | listings (listings : List ListingView) (active : Option String)
  | activeListing (file : String)
  | watches (watches : List WatchView)
  | memory (first last : UInt32) (values : List UInt8)
  | errors (buckets : Std.ExtTreeMap String (List Diagnostic))
  | reveal (place : SourcePlace)
  | notice (message : String)
  | rejected (action reason : String)
deriving Repr, Inhabited

namespace ViewMessage

/-! ## What is told of a session -/

/-- The registers of a session. -/
def ofRegisters (s : Session) : ViewMessage :=
  let registers := s.registers.snapshot
  .registers registers (registers.bind (·.floatHex.toOption)) s.registers.changed

/-- A listing of a session. -/
def listingView (s : Session) (l : Listing) : ListingView where
  file := l.file
  rows := l.rows
  breakpoints := s.listings.breakpoints.list l.file
  pcRow := s.registers.pc.bind l.pcRow?

/-- The listings of a session. -/
def ofListings (s : Session) : ViewMessage :=
  .listings (s.listings.listings.map (listingView s)) s.listings.activeFile?

/-- The variables of a session. -/
def ofWatches (s : Session) : ViewMessage := .watches s.watches.views

/-- The memory window of a session. -/
def ofMemory (s : Session) : ViewMessage :=
  .memory s.memory.range.first s.memory.range.last s.memory.values

/-- The diagnostics of a session. -/
def ofErrors (s : Session) : ViewMessage := .errors s.diagnostics.buckets

/-- The whole picture. -/
def picture (state : ExecutionState) (s : Session) : List ViewMessage :=
  [.state state, ofRegisters s, ofListings s, ofWatches s, ofMemory s, ofErrors s]

/-! ## Writing and reading -/

/-- The value of a listing as it is shown. -/
def listingToJson (l : ListingView) : Json :=
  .object [("file", .string l.file), ("rows", .ofList ListingRow.toJson l.rows),
    ("breakpoints", .ofList (fun n : UInt64 => .ofNat n.toNat) l.breakpoints),
    ("pc_row", .ofOption .ofNat l.pcRow)]

/-- The value of buckets. -/
def bucketsToJson (b : Std.ExtTreeMap String (List Diagnostic)) : Json :=
  .object (b.toList.map fun (key, ds) => (key, .ofList Diagnostic.toJson ds))

/-- The value of a message. -/
def toJson : ViewMessage → Json
  | state s => ViewRequest.tagged "State" [("state", .string s.name)]
  | registers r hex changed =>
    ViewRequest.tagged "Registers" [("registers", .ofOption RegisterSnapshot.toJson r),
      ("f_hex", .ofOption .string hex), ("changed", changed.toJson)]
  | listings ls active =>
    ViewRequest.tagged "Listings" [("listings", .ofList listingToJson ls),
      ("active", .ofOption .string active)]
  | activeListing file => ViewRequest.tagged "ActiveListing" [("file", .string file)]
  | watches ws => ViewRequest.tagged "Watches" [("watches", .ofList WatchView.toJson ws)]
  | memory first last values =>
    ViewRequest.tagged "Memory" [("start", .ofNat first.toNat), ("end", .ofNat last.toNat),
      ("values", WatchView.bytesToJson values)]
  | errors buckets => ViewRequest.tagged "Errors" [("errors", bucketsToJson buckets)]
  | reveal p =>
    ViewRequest.tagged "Reveal" [("file", .string p.file), ("row", .ofNat p.row.toNat),
      ("col", .ofNat p.col.toNat)]
  | notice message => ViewRequest.tagged "Notice" [("message", .string message)]
  | rejected action reason =>
    ViewRequest.tagged "Rejected" [("action", .string action), ("reason", .string reason)]

/-- Reads a listing as it is shown. -/
def listingOfJson? (j : Json) : Option ListingView := do
  let r ← j.record? 4
  return {
    file := ← r.required? ["file"] 0 Json.string?
    rows := ← r.required? ["rows"] 1 (Json.list? ListingRow.ofJson?)
    breakpoints := ← r.required? ["breakpoints"] 2 (Json.list? Json.uint64?)
    pcRow := ← r.optional? ["pc_row"] 3 (Json.nat? UInt64.size) }

/-- Reads buckets. The last bucket of a key counts. -/
def bucketsOfJson? (j : Json) : Option (Std.ExtTreeMap String (List Diagnostic)) :=
  (j.members? (Json.list? (Diagnostic.ofJson? true))).map fun members =>
    members.foldl (fun b (key, ds) => b.insert key ds) ∅

/-- Reads what belongs to a tag. -/
def ofTagged? (tag : String) (j : Json) : Option ViewMessage :=
  match tag with
  | "State" => do
    let r ← j.record? 1
    return state (← r.required? ["state"] 0 fun j =>
      (j.choice? true).bind ExecutionState.ofName?)
  | "Registers" => do
    let r ← j.record? 3
    return registers (← r.optional? ["registers"] 0 RegisterSnapshot.ofJson?)
      (← r.optional? ["f_hex"] 1 Json.string?) (← r.required? ["changed"] 2 RegisterSet.ofJson?)
  | "Listings" => do
    let r ← j.record? 2
    return listings (← r.required? ["listings"] 0 (Json.list? listingOfJson?))
      (← r.optional? ["active"] 1 Json.string?)
  | "ActiveListing" => do
    let r ← j.record? 1
    return activeListing (← r.required? ["file"] 0 Json.string?)
  | "Watches" => do
    let r ← j.record? 1
    return watches (← r.required? ["watches"] 0 (Json.list? WatchView.ofJson?))
  | "Memory" => do
    let r ← j.record? 3
    return memory (← r.required? ["start"] 0 Json.uint32?) (← r.required? ["end"] 1 Json.uint32?)
      (← r.required? ["values"] 2 (Json.list? Json.uint8?))
  | "Errors" => do
    let r ← j.record? 1
    return errors (← r.required? ["errors"] 0 bucketsOfJson?)
  | "Reveal" => do
    let r ← j.record? 3
    return reveal {
      file := ← r.required? ["file"] 0 Json.string?
      row := ← r.required? ["row"] 1 Json.uint32?
      col := ← r.required? ["col"] 2 Json.uint32? }
  | "Notice" => do
    let r ← j.record? 1
    return notice (← r.required? ["message"] 0 Json.string?)
  | "Rejected" => do
    let r ← j.record? 2
    return rejected (← r.required? ["action"] 0 Json.string?)
      (← r.required? ["reason"] 1 Json.string?)
  | _ => none

/-- Reads a message. Every part of its record is kept until the tag is known, so none may be
unreadable. -/
def ofJson? (j : Json) : Option ViewMessage :=
  if j.keepable 127 then j.tagged?.bind fun (tag, rest) => ofTagged? tag rest else none

end ViewMessage
end SicDebugger
