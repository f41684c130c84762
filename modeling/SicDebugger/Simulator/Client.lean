import SicDebugger.Simulator.Reply
import SicDebugger.Simulator.Request
import SicDebugger.Simulator.Status

/-!
# Results of requests

A request is lost on its way, or it is answered with a status and a body. The result of a request is
the reply in the body where the status is one of success and the body can be read, and an error in
every other case, whatever the body of a failure says.
-/

namespace SicDebugger

/-- What comes of a request that was sent. -/
inductive Arrival where
  | lost (reason : String)
  | answered (status : Nat) (body : String)
deriving DecidableEq, Repr, Inhabited

namespace Arrival

/-- The reply to a request at an endpoint. -/
def reply {α : Type} (endpoint : String) (read : Json → Option α) : Arrival → Except Error α
  | lost reason => .error (.transport reason)
  | answered status body =>
    if isSuccess status then
      match (Json.ofText? body).bind read with
      | some a => .ok a
      | none => .error (.transport "error decoding response body")
    else
      .error (.transport ("/" ++ endpoint ++ " answered " ++ statusText status ++ ": " ++ body))

/-- The result of a begin. However it fails, the simulator counts as unavailable. -/
def began (a : Arrival) : Except Error Unit :=
  match a.reply "begin" Ack.ofJson? with
  | .error e => .error (.remoteUnavailable e.message)
  | .ok ack => if ack.ok then .ok () else .error (.remoteUnavailable ack.message)

/-- The result of a load. -/
def loaded (a : Arrival) : Except Error LoadOutcome :=
  (a.reply "load" LoadReply.ofJson?).bind LoadReply.outcome

/-- The result of a step. -/
def stepped (a : Arrival) : Except Error RegisterSnapshot :=
  (a.reply "step" StepReply.ofJson?).bind StepReply.snapshot

/-- The result of a memory read. -/
def memory (a : Arrival) : Except Error (List UInt8) :=
  (a.reply "memory" MemoryReply.ofJson?).bind MemoryReply.bytes

/-- The result of a syntax check. -/
def checked (a : Arrival) : Except Error (List CheckedFile) :=
  (a.reply "syntax-check" SyntaxReply.ofJson?).bind SyntaxReply.results

end Arrival

namespace SimulatorRequest

/-- The error of a request that is not even sent. -/
def refusal? : SimulatorRequest → Option Error
  | memory first last => if first ≤ last then none else some (.invalidRange first last)
  | _ => none

/-- The address that a request goes to. Slashes at the end of the base do not count. -/
def url (base : String) (r : SimulatorRequest) : String :=
  String.ofList ((base.toList.reverse.dropWhile (· == '/')).reverse) ++ "/" ++ r.endpoint

end SimulatorRequest
end SicDebugger
