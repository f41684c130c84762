import SicDebugger.Listing.Basic
import SicDebugger.Registers
import SicDebugger.Watch

/-!
# Replies of the simulator

The simulator answers each request with a record. What the record says is turned into a result: of
a load, a program or the errors in its files; of a step, the registers; of a memory read, bytes.
An answer that reports a failure without saying what is wrong with which file is an error of the
request.
-/

namespace SicDebugger

/-- An acknowledgement. -/
structure Ack where
  ok : Bool
  message : String
deriving DecidableEq, Repr

/-- An error that the assembler found at a place in a file. -/
structure AssemblerError where
  row : UInt32 := 0
  col : UInt32 := 0
  length : Option UInt32 := none
  message : String := ""
  nonbreaking : Bool := false
deriving DecidableEq, Repr, Inhabited

/-- An error that the linker found in a file. -/
structure LinkerError where
  phase : String := ""
  msg : String := ""
deriving DecidableEq, Repr, Inhabited

/-- What a load says about one file. -/
structure LoadedFile where
  name : String
  rows : List ListingRow := []
  watches : List WatchVariable := []
  assemblerErrors : List AssemblerError := []
  linkerError : Option LinkerError := none
deriving DecidableEq, Repr, Inhabited

/-- What a load comes to. -/
inductive LoadOutcome where
  | loaded (registers : RegisterSnapshot) (files : List LoadedFile)
  | failed (files : List LoadedFile)
deriving DecidableEq, Repr

/-- The answer to a load. -/
structure LoadReply where
  ok : Bool
  message : String
  registers : Option RegisterSnapshot
  files : List LoadedFile
deriving DecidableEq, Repr

/-- The answer to a step. -/
structure StepReply where
  ok : Bool
  message : String
  registers : Option RegisterSnapshot
deriving DecidableEq, Repr

/-- The answer to a memory read. -/
structure MemoryReply where
  ok : Bool
  message : String
  values : List UInt8
deriving DecidableEq, Repr

/-- What a syntax check says about one file. -/
structure CheckedFile where
  name : String
  ok : Bool
  errors : List AssemblerError
deriving DecidableEq, Repr, Inhabited

/-- The answer to a syntax check. -/
structure SyntaxReply where
  ok : Bool
  message : String
  files : List CheckedFile
deriving DecidableEq, Repr

/-! ## What a reply comes to -/

/-- Whether the load found errors in the file. -/
def LoadedFile.hasErrors (f : LoadedFile) : Bool :=
  !f.assemblerErrors.isEmpty || f.linkerError.isSome

/-- The outcome of a load. A refusal counts as a failed load only where a file has errors. -/
def LoadReply.outcome (r : LoadReply) : Except Error LoadOutcome :=
  if r.ok then
    match r.registers with
    | some registers => .ok (.loaded registers r.files)
    | none => .error (.remote "load succeeded without a register snapshot")
  else if r.files.any LoadedFile.hasErrors then .ok (.failed r.files)
  else .error (.remote (if r.message = "" then "load failed" else r.message))

/-- The registers after a step. -/
def StepReply.snapshot (r : StepReply) : Except Error RegisterSnapshot :=
  if r.ok then
    match r.registers with
    | some registers => .ok registers
    | none => .error (.remote "step answered without registers")
  else .error (.remote r.message)

/-- The bytes of a memory read. -/
def MemoryReply.bytes (r : MemoryReply) : Except Error (List UInt8) :=
  if r.ok then .ok r.values else .error (.remote r.message)

/-- The files of a syntax check. A refusal that names no file is an error of the request. -/
def SyntaxReply.results (r : SyntaxReply) : Except Error (List CheckedFile) :=
  if r.files.isEmpty ∧ r.ok = false then .error (.remote r.message) else .ok r.files

/-! ## Reading replies -/

/-- Reads an acknowledgement. -/
def Ack.ofJson? (j : Json) : Option Ack := do
  let r ← j.record? 2
  return {
    ok := ← r.defaulted? ["ok"] 0 false Json.bool?
    message := ← r.nullable? ["message"] 1 "" Json.string? }

/-- Reads an error of the assembler. -/
def AssemblerError.ofJson? (j : Json) : Option AssemblerError := do
  let r ← j.record? 5
  return {
    row := ← r.defaulted? ["row"] 0 0 Json.uint32?
    col := ← r.defaulted? ["col"] 1 0 Json.uint32?
    length := ← r.defaulted? ["length"] 2 none (Json.optional? Json.uint32?)
    message := ← r.nullable? ["message"] 3 "" Json.string?
    nonbreaking := ← r.defaulted? ["nonbreaking"] 4 false Json.bool? }

/-- Reads an error of the linker. -/
def LinkerError.ofJson? (j : Json) : Option LinkerError := do
  let r ← j.record? 2
  return {
    phase := ← r.nullable? ["phase"] 0 "" Json.string?
    msg := ← r.nullable? ["msg"] 1 "" Json.string? }

/-- The keys under which the errors of the assembler stand. -/
def assemblerErrorKeys : List String := ["compileErrors", "assemblerErrors"]

/-- Reads the listing of a file: its rows and the variables that it declares. -/
def LoadedFile.listingOfJson? (j : Json) : Option (List ListingRow × List WatchVariable) := do
  let r ← j.record? 2
  return (← r.nullable? ["rows"] 0 [] (Json.list? ListingRow.ofJson?),
    ← r.nullable? ["watch"] 1 [] (Json.list? WatchVariable.ofJson?))

/-- Reads what a load says about one file. -/
def LoadedFile.ofJson? (j : Json) : Option LoadedFile := do
  let r ← j.record? 4
  let name ← r.required? ["fileName"] 0 Json.string?
  let (rows, watches) ← r.nullable? ["listing"] 1 ([], []) LoadedFile.listingOfJson?
  return {
    name, rows, watches
    assemblerErrors :=
      ← r.nullable? assemblerErrorKeys 2 [] (Json.list? AssemblerError.ofJson?)
    linkerError := ← r.defaulted? ["linkerError"] 3 none (Json.optional? LinkerError.ofJson?) }

/-- Reads the answer to a load. -/
def LoadReply.ofJson? (j : Json) : Option LoadReply := do
  let r ← j.record? 4
  return {
    ok := ← r.defaulted? ["ok"] 0 false Json.bool?
    message := ← r.nullable? ["message"] 1 "" Json.string?
    registers := ← r.defaulted? ["registers"] 2 none (Json.optional? RegisterSnapshot.ofJson?)
    files := ← r.nullable? ["files"] 3 [] (Json.list? LoadedFile.ofJson?) }

/-- Reads the answer to a step. -/
def StepReply.ofJson? (j : Json) : Option StepReply := do
  let r ← j.record? 3
  return {
    ok := ← r.defaulted? ["ok"] 0 false Json.bool?
    message := ← r.nullable? ["message"] 1 "" Json.string?
    registers :=
      ← r.defaulted? ["registers"] 2 none (Json.optional? RegisterSnapshot.ofJson?) }

/-- Reads the answer to a memory read, which says only of a failure that it is one. -/
def MemoryReply.ofJson? (j : Json) : Option MemoryReply := do
  let r ← j.record? 3
  return {
    ok := ← r.defaulted? ["ok"] 0 true Json.bool?
    message := ← r.nullable? ["message"] 1 "" Json.string?
    values := ← r.nullable? ["values"] 2 [] (Json.list? Json.uint8?) }

/-- Reads what a syntax check says about one file. -/
def CheckedFile.ofJson? (j : Json) : Option CheckedFile := do
  let r ← j.record? 3
  return {
    name := ← r.required? ["fileName"] 0 Json.string?
    ok := ← r.defaulted? ["ok"] 1 false Json.bool?
    errors := ← r.nullable? assemblerErrorKeys 2 [] (Json.list? AssemblerError.ofJson?) }

/-- Reads the answer to a syntax check. -/
def SyntaxReply.ofJson? (j : Json) : Option SyntaxReply := do
  let r ← j.record? 3
  return {
    ok := ← r.defaulted? ["ok"] 0 false Json.bool?
    message := ← r.nullable? ["message"] 1 "" Json.string?
    files := ← r.nullable? ["files"] 2 [] (Json.list? CheckedFile.ofJson?) }

end SicDebugger
