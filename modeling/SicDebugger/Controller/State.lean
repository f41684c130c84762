import SicDebugger.Controller.Settings
import SicDebugger.View.Message

/-!
# The state of the controller

The controller carries out the requests of the views and the loops of continuous runs. Each is a
task, which goes on until it has to wait: for an answer of the simulator, for the end of a delay,
for the guard, or for the end of a loop. The guard is held by at most one task while a load, a step,
a reset or a read of the moved memory window is under way; a request that finds it taken is refused,
a loop waits in line for it. What a task waits for says how it goes on, so the state of the
controller is data alone.
-/

namespace SicDebugger

/-- The number of a task. -/
abbrev TaskId := Nat

/-- How a loop is asked to end. -/
inductive Halt where
  | pause
  | stop
deriving DecidableEq, Repr, Inhabited

/-- The stronger of a halt asked for and another. A stop is never weakened. -/
def Halt.strengthen : Option Halt → Halt → Halt
  | some .stop, _ => .stop
  | _, h => h

/-- What a program is loaded for. -/
inductive LoadGoal where
  | run
  | step
deriving DecidableEq, Repr, Inhabited

/-- What a memory read is for. -/
inductive ReadTarget where
  | window (range : AddressRange)
  | watch (read : WatchRead)
deriving DecidableEq, Repr

namespace ReadTarget

/-- The range that is read. -/
def range : ReadTarget → AddressRange
  | window r => r
  | watch r => r.range

end ReadTarget

/-- A memory read that has not been answered. The slot tells it from the others of its task. -/
structure PendingRead where
  slot : Nat
  target : ReadTarget
deriving DecidableEq, Repr

/-- What follows once the views have been refreshed. -/
inductive AfterRefresh where
  | load (goal : LoadGoal)
  | step (verdict : StepVerdict)
deriving DecidableEq, Repr, Inhabited

/-- What a request comes to. -/
inductive Reply where
  | done
  | flag (b : Bool)
  | picture (messages : List ViewMessage)
deriving Repr, Inhabited

/-- What a task waits for. -/
inductive Wait where
  /-- The answer to the begin of a load. -/
  | begin (goal : LoadGoal)
  /-- The answer to a load. -/
  | load (goal : LoadGoal)
  /-- The answer to a step. -/
  | step
  /-- The answers to reads of the memory window and the variables. -/
  | refresh (pending : List PendingRead) (next : AfterRefresh)
  /-- The answer to the begin of a reset, with what the request comes to then. -/
  | reset (result : Except Error Reply)
  /-- The answer to the read of the moved memory window. -/
  | windowRead (range : AddressRange)
  /-- The answer to a syntax check. -/
  | check
  /-- The end of a loop that was asked to halt. -/
  | loopEnd (loop : TaskId) (halt : Halt)
  /-- The first turn of a loop. -/
  | turn
  /-- The end of the delay of a loop. -/
  | asleep
  /-- The guard, for a loop in line. -/
  | inLine
deriving Repr, Inhabited

/-- Who a task works for: a view's request, or a continuous run with the halt that was asked of
it. -/
inductive Role where
  | request
  | loop (asked : Option Halt)
deriving DecidableEq, Repr, Inhabited

/-- A task that waits. -/
structure Task where
  role : Role
  wait : Wait
deriving Repr, Inhabited

/-- What happens in the controller, as its surroundings see it. -/
inductive Occurrence where
  /-- All views are told. -/
  | published (message : ViewMessage)
  /-- The simulator is asked. The slot tells the request from others of its task. -/
  | sent (task : TaskId) (slot : Nat) (request : SimulatorRequest)
  /-- A loop waits for the delay to end. -/
  | slept (task : TaskId) (delay : StepDelay)
  /-- A task need not wait any more: a loop that was made, woken or given the guard, or a request
  whose loop has ended. -/
  | ready (task : TaskId)
  /-- A request has come to its end. -/
  | answered (task : TaskId) (result : Except Error Reply)
deriving Repr, Inhabited

/-- The controller of the debugger. -/
structure Controller where
  settings : ControllerSettings
  session : Session
  state : ExecutionState
  delay : StepDelay
  /-- The task that holds the guard. -/
  guard : Option TaskId
  /-- The loops in line for the guard. -/
  line : List TaskId
  /-- The loop that a pause or a stop is meant for. -/
  handle : Option TaskId
  tasks : Std.ExtTreeMap TaskId Task
  nextTask : TaskId
  /-- What has happened, the latest first. -/
  history : List Occurrence
deriving Repr

namespace Controller

/-- The controller of the settings, with nothing loaded. -/
def ofSettings (settings : ControllerSettings) : Controller where
  settings := settings
  session := .ofRoot settings.projectRoot settings.window
  state := .idle
  delay := settings.delay
  guard := none
  line := []
  handle := none
  tasks := ∅
  nextTask := 0
  history := []

/-- The whole picture for a view. -/
def picture (c : Controller) : List ViewMessage := ViewMessage.picture c.state c.session

/-! ## Elements of what a task does -/

/-- Adds to what has happened. -/
def note (c : Controller) (o : Occurrence) : Controller := { c with history := o :: c.history }

/-- Tells all views. -/
def publish (c : Controller) (m : ViewMessage) : Controller := c.note (.published m)

/-- Tells all views about the session. -/
def publishOf (c : Controller) (build : Session → ViewMessage) : Controller :=
  c.publish (build c.session)

/-- Takes an execution state and tells the views. -/
def setState (c : Controller) (s : ExecutionState) : Controller :=
  { c with state := s }.publish (.state s)

/-- Changes the session. -/
def withSession (c : Controller) (f : Session → Session) : Controller :=
  { c with session := f c.session }

/-- Lets a task wait. -/
def suspend (c : Controller) (t : TaskId) (role : Role) (w : Wait) : Controller :=
  { c with tasks := c.tasks.insert t ⟨role, w⟩ }

/-- Asks the simulator and lets the task wait for the answer. -/
def call (c : Controller) (t : TaskId) (role : Role) (r : SimulatorRequest) (w : Wait) :
    Controller :=
  (c.note (.sent t 0 r)).suspend t role w

/-- Gives the guard to the task. -/
def hold (c : Controller) (t : TaskId) : Controller := { c with guard := some t }

/-- Gives the guard back. The first loop in line has it from then on. -/
def release (c : Controller) : Controller :=
  match c.line with
  | [] => { c with guard := none }
  | t :: rest => { c with guard := some t, line := rest }.note (.ready t)

/-- The requests that wait for the end of a loop. -/
def waiters (c : Controller) (loop : TaskId) : List TaskId :=
  c.tasks.toList.filterMap fun (t, task) =>
    match task.wait with
    | .loopEnd l _ => if l = loop then some t else none
    | _ => none

/-- Ends a request. -/
def answer (c : Controller) (t : TaskId) (result : Except Error Reply) : Controller :=
  { c with tasks := c.tasks.erase t }.note (.answered t result)

/-- Ends a loop. -/
def endLoop (c : Controller) (t : TaskId) : Controller :=
  (c.waiters t).foldl (fun c w => c.note (.ready w)) { c with tasks := c.tasks.erase t }

/-- Ends a task that holds the guard. -/
def conclude (c : Controller) (t : TaskId) (role : Role) (result : Except Error Reply) :
    Controller :=
  match role with
  | .request => c.release.answer t result
  | .loop _ => c.release.endLoop t

end Controller
end SicDebugger
