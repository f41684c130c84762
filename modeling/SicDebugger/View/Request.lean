import SicDebugger.Json.Record
import SicDebugger.Json.Writer

/-!
# Requests of the views

A view asks the debugger for something by a tagged record. The name of what is asked for is given
back with a refusal.
-/

namespace SicDebugger

/-- What a view asks for. -/
inductive ViewRequest where
  | run
  | step
  | pause
  | stop
  | toggleBreakpoint (file : String) (row : UInt64)
  | selectListing (file : String)
  | setDelay (ms : Binary64)
  | setWindow (first last : UInt32)
  | check (texts names : List String)
  | queryState
deriving DecidableEq, Repr, Inhabited

namespace ViewRequest

/-- The name of what is asked for. -/
def action : ViewRequest → String
  | run => "run"
  | step => "step"
  | pause => "pause"
  | stop => "stop"
  | toggleBreakpoint .. => "toggle-breakpoint"
  | selectListing _ => "select-listing"
  | setDelay _ => "set-delay"
  | setWindow .. => "set-memory-window"
  | check .. => "syntax-check"
  | queryState => "query-state"

/-- A record with its tag in front. -/
def tagged (tag : String) (members : List (String × Json)) : Json :=
  .object (("type", .string tag) :: members)

/-- The value of a double. One that is not finite has none. -/
def doubleToJson (x : Binary64) : Json := if x.isFinite then .number (.ofBinary64 x) else .null

/-- The value of a request. -/
def toJson : ViewRequest → Json
  | run => tagged "Run" []
  | step => tagged "Step" []
  | pause => tagged "Pause" []
  | stop => tagged "Stop" []
  | toggleBreakpoint file row =>
    tagged "ToggleBreakpoint" [("file", .string file), ("row", .ofNat row.toNat)]
  | selectListing file => tagged "SelectListing" [("file", .string file)]
  | setDelay ms => tagged "SetDelay" [("ms", doubleToJson ms)]
  | setWindow first last =>
    tagged "SetMemoryWindow" [("start", .ofNat first.toNat), ("end", .ofNat last.toNat)]
  | check texts names =>
    tagged "SyntaxCheck" [("texts", .ofList .string texts), ("file_names", .ofList .string names)]
  | queryState => tagged "QueryState" []

/-- Reads what belongs to a tag. -/
def ofTagged? (tag : String) (j : Json) : Option ViewRequest :=
  let texts := Json.list? Json.string?
  match tag with
  | "Run" => if j.fieldless then some run else none
  | "Step" => if j.fieldless then some step else none
  | "Pause" => if j.fieldless then some pause else none
  | "Stop" => if j.fieldless then some stop else none
  | "QueryState" => if j.fieldless then some queryState else none
  | "ToggleBreakpoint" => do
    let r ← j.record? 2
    return toggleBreakpoint (← r.required? ["file"] 0 Json.string?)
      (← r.required? ["row"] 1 Json.uint64?)
  | "SelectListing" => do
    let r ← j.record? 1
    return selectListing (← r.required? ["file"] 0 Json.string?)
  | "SetDelay" => do
    let r ← j.record? 1
    return setDelay (← r.required? ["ms"] 0 Json.double?)
  | "SetMemoryWindow" => do
    let r ← j.record? 2
    return setWindow (← r.required? ["start"] 0 Json.uint32?)
      (← r.required? ["end"] 1 Json.uint32?)
  | "SyntaxCheck" => do
    let r ← j.record? 2
    return check (← r.required? ["texts"] 0 texts) (← r.required? ["file_names"] 1 texts)
  | _ => none

/-- Reads a request. Every part of its record is kept until the tag is known, so none may be
unreadable. -/
def ofJson? (j : Json) : Option ViewRequest :=
  if j.keepable 127 then j.tagged?.bind fun (tag, rest) => ofTagged? tag rest else none

end ViewRequest
end SicDebugger
