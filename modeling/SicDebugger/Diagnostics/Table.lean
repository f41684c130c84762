import SicDebugger.Diagnostics.Basic
import SicDebugger.Path
import Std.Data.ExtTreeMap

/-!
# The table of diagnostics

Diagnostics are kept in buckets, one for each file, under the key that the file has in the project.
Syntax checks and loads take turns on the same buckets, and each replaces or clears only what it
found itself.
-/

namespace SicDebugger

/-- The diagnostics of a project by the keys of its files. -/
structure DiagnosticTable where
  root : Option Path := none
  buckets : Std.ExtTreeMap String (List Diagnostic) := ∅
deriving Repr, Inhabited

namespace DiagnosticTable

/-- The table without diagnostics for the project at a root. -/
def ofRoot (root : Option String) : DiagnosticTable where
  root := root.map fun r => (Path.ofText r).normal

/-- The key of a file. -/
def key (t : DiagnosticTable) (file : String) : String := Path.key t.root file

/-- The diagnostics that have another origin. -/
def others (origin : DiagnosticOrigin) (ds : List Diagnostic) : List Diagnostic :=
  ds.filter (·.origin != origin)

/-- The bucket of the diagnostics, if there are any. -/
def bucket? (ds : List Diagnostic) : Option (List Diagnostic) :=
  if ds.isEmpty then none else some ds

/-- Takes the diagnostics as the whole bucket of a file. -/
def put (t : DiagnosticTable) (file : String) (ds : List Diagnostic) : DiagnosticTable :=
  { t with buckets := t.buckets.insert (t.key file) ds }

/-- Takes the diagnostics for those that a file has of the origin, and gives them that origin. -/
def replaceOrigin (t : DiagnosticTable) (file : String) (origin : DiagnosticOrigin)
    (ds : List Diagnostic) : DiagnosticTable :=
  { t with
    buckets := t.buckets.alter (t.key file) fun kept =>
      bucket? (others origin (kept.getD []) ++ ds.map fun d => { d with origin }) }

/-- Drops all diagnostics. -/
def clear (t : DiagnosticTable) : DiagnosticTable := { t with buckets := ∅ }

/-- Drops the bucket of a file. -/
def clearFile (t : DiagnosticTable) (file : String) : DiagnosticTable :=
  { t with buckets := t.buckets.erase (t.key file) }

/-- Drops what a file has of an origin. -/
def clearFileOrigin (t : DiagnosticTable) (file : String) (origin : DiagnosticOrigin) :
    DiagnosticTable :=
  { t with buckets := t.buckets.alter (t.key file) fun kept =>
      kept.bind fun ds => bucket? (others origin ds) }

/-- Drops what any file has of an origin. -/
def clearOrigin (t : DiagnosticTable) (origin : DiagnosticOrigin) : DiagnosticTable :=
  { t with buckets := t.buckets.filterMap fun _ ds => bucket? (others origin ds) }

/-- The diagnostics of a file. -/
def get (t : DiagnosticTable) (file : String) : List Diagnostic := t.buckets.getD (t.key file) []

/-- Whether there is no bucket. -/
def isEmpty (t : DiagnosticTable) : Bool := t.buckets.isEmpty

end DiagnosticTable
end SicDebugger
