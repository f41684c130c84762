import SicDebugger.Listing.Basic
import Std.Data.ExtTreeMap
import Std.Data.ExtTreeSet

/-!
# The index of listings

The listings of the loaded program stand in load order, and one of them is active: the one that the
views show. Breakpoints are rows kept by file. They outlive the listings, so they can be set before
a program is loaded; the next load drops those that fall outside its listings.
-/

namespace SicDebugger

/-- The rows with a breakpoint, by file. -/
abbrev Breakpoints := Std.ExtTreeMap String (Std.ExtTreeSet UInt64)

namespace Breakpoints

/-- The rows of a file. -/
def rows (b : Breakpoints) (file : String) : Std.ExtTreeSet UInt64 := b.getD file ∅

/-- Whether a row of a file is among them. -/
def has (b : Breakpoints) (file : String) (row : UInt64) : Bool := (b.rows file).contains row

/-- The rows of a file in ascending order. -/
def list (b : Breakpoints) (file : String) : List UInt64 := (b.rows file).toList

/-- Turns one breakpoint over. A file without rows is not kept. -/
def toggle (b : Breakpoints) (file : String) (row : UInt64) : Breakpoints :=
  b.alter file fun kept =>
    let rows := kept.getD ∅
    let turned := if rows.contains row then rows.erase row else rows.insert row
    if turned.isEmpty then none else some turned

/-- Keeps the breakpoints that a condition picks. A file without rows is not kept. -/
def keep (b : Breakpoints) (p : String → UInt64 → Bool) : Breakpoints :=
  b.filterMap fun file rows =>
    let kept := rows.filter (p file)
    if kept.isEmpty then none else some kept

end Breakpoints

/-- Listings in load order, the place of the active one, and the breakpoints. -/
structure ListingIndex where
  listings : List Listing := []
  active : Option Nat := none
  breakpoints : Breakpoints := ∅
deriving Repr, Inhabited

namespace ListingIndex

/-- The first listing of a file. -/
def get? (x : ListingIndex) (file : String) : Option Listing :=
  x.listings.find? (·.file == file)

/-- The active listing. -/
def activeListing? (x : ListingIndex) : Option Listing := x.active.bind (x.listings[·]?)

/-- The file of the active listing. -/
def activeFile? (x : ListingIndex) : Option String := x.activeListing?.map (·.file)

/-- Whether a first listing among `listings` has the row. -/
def hasRow (listings : List Listing) (file : String) (row : UInt64) : Bool :=
  (listings.find? (·.file == file)).any fun l => decide (row.toNat < l.rows.length)

/-- Takes new listings. The active file stays active where it is still listed, and a breakpoint
stays where its row is. -/
def replace (x : ListingIndex) (listings : List Listing) : ListingIndex where
  listings := listings
  active :=
    match x.activeFile?.bind fun file => listings.findIdx? (·.file == file) with
    | some i => some i
    | none => if listings.isEmpty then none else some 0
  breakpoints := x.breakpoints.keep (hasRow listings)

/-- Drops the listings and keeps the breakpoints. -/
def clear (x : ListingIndex) : ListingIndex := { breakpoints := x.breakpoints }

/-- Makes the first listing of a file active, if there is one. -/
def select? (x : ListingIndex) (file : String) : Option ListingIndex :=
  (x.listings.findIdx? (·.file == file)).map fun i => { x with active := some i }

/-- Whether a toggle is ignored: the file is listed and has no such row. -/
def ignoresToggle (x : ListingIndex) (file : String) (row : UInt64) : Bool :=
  (x.get? file).any fun l => decide (l.rows.length ≤ row.toNat)

/-- Turns a breakpoint over, unless it is outside a listing. -/
def toggle (x : ListingIndex) (file : String) (row : UInt64) : ListingIndex :=
  if x.ignoresToggle file row then x
  else { x with breakpoints := x.breakpoints.toggle file row }

/-- What a toggle answers: whether the row has a breakpoint afterwards. -/
def toggleSets (x : ListingIndex) (file : String) (row : UInt64) : Bool :=
  !x.ignoresToggle file row && !x.breakpoints.has file row

/-- Makes a listing active that has the instruction at the address: the active one if it does, else
the first. The file is given where another listing became active. -/
def focus (x : ListingIndex) (pc : UInt32) : ListingIndex × Option String :=
  if x.activeListing?.any (·.containsPc pc) then (x, none)
  else
    match x.listings.findIdx? (·.containsPc pc) with
    | some i => ({ x with active := some i }, x.listings[i]?.map (·.file))
    | none => (x, none)

/-- The first breakpoint of the active file that is the instruction at the address. -/
def breakpointHit? (x : ListingIndex) (pc : UInt32) : Option (String × UInt64) :=
  x.activeListing?.bind fun l =>
    ((x.breakpoints.list l.file).find? (l.executesAt · pc)).map (l.file, ·)

end ListingIndex
end SicDebugger
