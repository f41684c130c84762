import SicDebugger.Simulator.Reply

/-!
# Diagnostics

A diagnostic is an error at a place in a source file, with the activity that found it: a syntax
check or a load. Errors of the linker have no place.
-/

namespace SicDebugger

/-- The activity that finds an error. -/
inductive DiagnosticOrigin where
  | check
  | load
deriving DecidableEq, Repr, Inhabited

/-- The word for an origin. -/
def DiagnosticOrigin.word : DiagnosticOrigin → String
  | check => "syntax"
  | load => "load"

/-- The origin of a word. -/
def DiagnosticOrigin.ofWord? : String → Option DiagnosticOrigin
  | "syntax" => some check
  | "load" => some load
  | _ => none

/-- An error at a place in a source file. -/
structure Diagnostic where
  row : UInt32
  col : UInt32
  length : Option UInt32 := none
  message : String
  origin : DiagnosticOrigin
deriving DecidableEq, Repr, Inhabited

namespace Diagnostic

/-- The diagnostic of an error of the assembler. -/
def ofAssembler (e : AssemblerError) (origin : DiagnosticOrigin) : Diagnostic where
  row := e.row
  col := e.col
  length := e.length
  message := e.message
  origin := origin

/-- The diagnostic of an error of the linker. -/
def ofLinker (e : LinkerError) : Diagnostic where
  row := 0
  col := 0
  message := if e.phase = "" then e.msg else e.phase ++ ": " ++ e.msg
  origin := .load

/-- The value of a diagnostic. A length that is not known is left away. -/
def toJson (d : Diagnostic) : Json :=
  .object ([("row", .ofNat d.row.toNat), ("col", .ofNat d.col.toNat)] ++
    (d.length.map fun n => ("length", Json.ofNat n.toNat)).toList ++
    [("message", .string d.message), ("type", .string d.origin.word)])

/-- Reads a diagnostic, which may belong to a part that was kept before it is read. -/
def ofJson? (kept : Bool) (j : Json) : Option Diagnostic := do
  let r ← j.record? 5
  return {
    row := ← r.required? ["row"] 0 Json.uint32?
    col := ← r.required? ["col"] 1 Json.uint32?
    length := ← r.defaulted? ["length"] 2 none (Json.optional? Json.uint32?)
    message := ← r.required? ["message"] 3 Json.string?
    origin := ← r.required? ["type"] 4 fun j =>
      (j.choice? kept).bind DiagnosticOrigin.ofWord? }

end Diagnostic
end SicDebugger
