import SicDebugger.Simulator.Client

/-!
# Scripted simulators

A rehearsal runs the debugger against a script: for each endpoint the replies that it gives, one
after the other, each after a time of its own. Where the script has no further reply, a begin
succeeds, a memory read answers the low bytes of the addresses if they are few, and anything else
is lost.
-/

namespace SicDebugger

/-- A reply of a script, and the milliseconds after which it comes. -/
structure ScriptedReply where
  delay : Nat
  arrival : Arrival
deriving DecidableEq, Repr, Inhabited

/-- The replies still to be given, by endpoint. -/
structure Script where
  replies : List (String × List ScriptedReply) := []
deriving DecidableEq, Repr, Inhabited

namespace Script

/-- The low bytes of the addresses from `first` to `last`. -/
def lowBytes (first last : UInt32) : List UInt8 :=
  (List.range (last.toNat - first.toNat + 1)).map fun i => UInt8.ofNat (first.toNat + i)

/-- The reply to a request that the script does not cover. -/
def usual : SimulatorRequest → Arrival
  | .begin _ =>
    .answered 200 (Json.object [("ok", .bool true), ("message", .string "ready")]).toText
  | .memory first last =>
    if last.toNat - first.toNat < 1024 then
      .answered 200 (Json.object [("values", WatchView.bytesToJson (lowBytes first last))]).toText
    else .lost "range too long"
  | _ => .lost "script exhausted"

/-- Takes the reply to a request. -/
def take (s : Script) (r : SimulatorRequest) : ScriptedReply × Script :=
  match s.replies.lookup r.endpoint with
  | some (reply :: rest) =>
    (reply, ⟨s.replies.map fun q => if q.1 == r.endpoint then (q.1, rest) else q⟩)
  | _ => (⟨0, usual r⟩, s)

end Script
end SicDebugger
