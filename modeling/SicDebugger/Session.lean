import SicDebugger.Diagnostics.Table
import SicDebugger.Listing.Index

/-!
# Sessions

A session is what one load brings and every later step changes: registers, listings with their
breakpoints, watched variables, the window of memory that is shown, and diagnostics. A load that
succeeds replaces registers, listings and variables as a whole; one that fails leaves them alone and
reports its errors. A step that leaves the program counter where it was ends the program.
-/

namespace SicDebugger

/-- The range of memory that is shown, and its bytes once they have been read. -/
structure MemoryWindow where
  range : AddressRange
  values : List UInt8 := []
deriving DecidableEq, Repr

/-- A place in a source file. -/
structure SourcePlace where
  file : String
  row : UInt32
  col : UInt32
deriving DecidableEq, Repr, Inhabited

/-- Whether a load brought a program. -/
inductive LoadReport where
  | loaded
  /-- The place is that of the first error of the assembler. -/
  | failed (reveal : Option SourcePlace)
deriving DecidableEq, Repr, Inhabited

/-- What a step means for the run. -/
inductive StepVerdict where
  | continue
  | breakpointHit (file : String) (row : UInt64)
  | finished
deriving DecidableEq, Repr, Inhabited

/-- What a step did. -/
structure StepReport where
  verdict : StepVerdict
  changed : RegisterSet
  /-- The file that became active, where another one did. -/
  focused : Option String
deriving DecidableEq, Repr, Inhabited

/-- All that the debugger holds about a program. -/
structure Session where
  registers : RegisterCache := {}
  listings : ListingIndex := {}
  watches : WatchRegistry := {}
  diagnostics : DiagnosticTable := {}
  memory : MemoryWindow
deriving Repr

namespace Session

/-- The session without a program for the project at a root. -/
def ofRoot (root : Option String) (window : AddressRange) : Session where
  diagnostics := .ofRoot root
  memory := { range := window }

/-- Whether a program is loaded. -/
def isLoaded (s : Session) : Bool := !s.listings.listings.isEmpty

/-- The first error of the assembler in the order of the files. -/
def firstError? (files : List LoadedFile) : Option SourcePlace :=
  files.findSome? fun f => f.assemblerErrors.head?.map fun e => ⟨f.name, e.row, e.col⟩

/-- The diagnostics of a file that a load found. -/
def fileDiagnostics (f : LoadedFile) : List Diagnostic :=
  f.assemblerErrors.map (Diagnostic.ofAssembler · .load) ++
    (f.linkerError.map Diagnostic.ofLinker).toList

/-- Takes a loaded program. -/
def applyLoaded (s : Session) (registers : RegisterSnapshot) (files : List LoadedFile) : Session :=
  let listings := s.listings.replace (files.map fun f => ⟨f.name, f.rows⟩)
  { registers := s.registers.clear.replace registers
    listings := (listings.focus registers.pc).1
    watches := s.watches.replace (files.flatMap fun f => f.watches.map (⟨f.name, ·⟩))
    diagnostics := s.diagnostics.clearOrigin .load
    memory := { s.memory with values := [] } }

/-- Takes the errors of a failed load. -/
def applyFailed (s : Session) (files : List LoadedFile) : Session :=
  { s with
    diagnostics := (files.filter LoadedFile.hasErrors).foldl
      (fun t f => t.replaceOrigin f.name .load (fileDiagnostics f))
      (s.diagnostics.clearOrigin .load) }

/-- Takes the outcome of a load. -/
def applyLoad (s : Session) : LoadOutcome → Session × LoadReport
  | .loaded registers files => (s.applyLoaded registers files, .loaded)
  | .failed files =>
    (s.applyFailed files,
      .failed ((firstError? files).map fun p => { p with file := s.diagnostics.key p.file }))

/-- Takes the registers after a step. -/
def applyStep (s : Session) (next : RegisterSnapshot) : Session × StepReport :=
  let registers := s.registers.replace next
  if s.registers.pc = some next.pc then
    ({ s with registers }, ⟨.finished, registers.changed, none⟩)
  else
    let (listings, focused) := s.listings.focus next.pc
    let verdict :=
      match listings.breakpointHit? next.pc with
      | some (file, row) => .breakpointHit file row
      | none => .continue
    ({ s with registers, listings }, ⟨verdict, registers.changed, focused⟩)

/-- Moves the memory window. Its bytes are to be read anew. -/
def setWindow (s : Session) (range : AddressRange) : Session :=
  { s with memory := { range } }

/-- Whether a read is one of the memory window. -/
def showsRange (s : Session) (first last : UInt32) : Bool :=
  s.memory.range.first == first && s.memory.range.last == last

/-- Keeps bytes read for the memory window, unless it has moved. -/
def storeMemory (s : Session) (first last : UInt32) (values : List UInt8) : Session :=
  if s.showsRange first last then { s with memory := { s.memory with values } } else s

/-- Drops what a load brought. Breakpoints and diagnostics stay. -/
def clear (s : Session) : Session :=
  { s with
    registers := s.registers.clear
    listings := s.listings.clear
    watches := s.watches.clear
    memory := { s.memory with values := [] } }

end Session
end SicDebugger
