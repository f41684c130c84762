import SicDebugger.Controller.Request
import SicDebugger.Simulator.Client

/-!
# Events of the controller

The controller moves by events: a request of a view, an answer of the simulator, or a task that
need not wait any more. An event that does not fit what its task waits for cannot happen. Between
two events nothing changes, so everything that can come of any timing is a sequence of events.
-/

namespace SicDebugger

/-- What moves the controller on. -/
inductive Event where
  | request (r : ViewRequest)
  | began (task : TaskId) (result : Except Error Unit)
  | loaded (task : TaskId) (result : Except Error LoadOutcome)
  | stepped (task : TaskId) (result : Except Error RegisterSnapshot)
  | read (task : TaskId) (slot : Nat) (result : Except Error (List UInt8))
  | checked (task : TaskId) (result : Except Error (List CheckedFile))
  /-- The first turn of a loop, the end of its delay, its turn with the guard, or the end of the
  loop that a request waits for. -/
  | resumed (task : TaskId)
deriving Repr, Inhabited

namespace Event

/-- The event of an answer to a request of a task. -/
def ofArrival (task : TaskId) (slot : Nat) (r : SimulatorRequest) (a : Arrival) : Event :=
  match r with
  | .begin _ => .began task a.began
  | .load _ => .loaded task a.loaded
  | .step => .stepped task a.stepped
  | .memory .. => .read task slot a.memory
  | .check .. => .checked task a.checked

end Event

namespace Controller

/-- Lets a task go on that need not wait any more. -/
def resume? (c : Controller) (t : TaskId) (task : Task) : Option Controller :=
  match task.wait, task.role with
  | .turn, .loop asked => some (c.beginTurn t asked)
  | .asleep, .loop asked => some (c.afterDelay t asked)
  | .inLine, .loop asked => if c.guard = some t then some (c.withGuard t asked) else none
  | .loopEnd loop halt, _ => if c.tasks.contains loop then none else some (c.afterLoop t halt)
  | _, _ => none

/-- The controller after an event, if the event can happen. -/
def perform? (c : Controller) : Event → Option Controller
  | .request r => some (c.request r)
  | .resumed t => c.tasks[t]?.bind (c.resume? t)
  | .began t result =>
    match c.tasks[t]? with
    | some ⟨_, .begin goal⟩ => some (c.afterBegin t goal result)
    | some ⟨role, .reset outcome⟩ => some (c.afterReset t role outcome)
    | _ => none
  | .loaded t result =>
    match c.tasks[t]? with
    | some ⟨_, .load goal⟩ => some (c.afterLoad t goal result)
    | _ => none
  | .stepped t result =>
    match c.tasks[t]? with
    | some ⟨role, .step⟩ => some (c.afterStep t role result)
    | _ => none
  | .read t slot result =>
    match c.tasks[t]? with
    | some ⟨role, .refresh pending next⟩ =>
      if pending.any (·.slot == slot) then some (c.afterRead t role pending next slot result)
      else none
    | some ⟨_, .windowRead range⟩ => if slot = 0 then some (c.afterWindow t range result) else none
    | _ => none
  | .checked t result =>
    match c.tasks[t]? with
    | some ⟨_, .check⟩ => some (c.afterCheck t result)
    | _ => none

/-- The controller after an event, and what has happened in it, the earliest first. -/
def happen? (c : Controller) (e : Event) : Option (Controller × List Occurrence) :=
  match { c with history := [] }.perform? e with
  | some d => some ({ d with history := d.history ++ c.history }, d.history.reverse)
  | none => none

end Controller
end SicDebugger
