import SicDebugger.Controller.State

/-!
# What the tasks do

A load begins a session with the simulator, loads the program and refreshes the views; a step is
sent, applied and followed by a refresh; a reset begins a new session and clears the old one. A loop
takes one step after another, each behind a delay and a turn with the guard, and looks before every
wait and after it whether it was asked to halt.
-/

namespace SicDebugger

namespace Controller

/-! ## Refreshing the views -/

/-- The reads of a refresh: the memory window, and each variable that has bytes. -/
def refreshTargets (s : Session) : List ReadTarget :=
  .window s.memory.range :: s.watches.reads.map .watch

/-- Targets with their slots. -/
def pendingReads (targets : List ReadTarget) : List PendingRead :=
  targets.zipIdx.map fun (target, slot) => ⟨slot, target⟩

/-- The request of a read. -/
def readRequest (r : AddressRange) : SimulatorRequest := .memory r.first r.last

/-- Sends all reads of a refresh at once and waits for their answers. -/
def refresh (c : Controller) (t : TaskId) (role : Role) (next : AfterRefresh) : Controller :=
  let pending := pendingReads (refreshTargets c.session)
  let sent := pending.foldl
    (fun c p => c.note (.sent t p.slot (readRequest p.target.range))) c
  sent.suspend t role (.refresh pending next)

/-- Keeps the bytes of a read. A read that failed leaves what was there. -/
def storeRead (s : Session) (target : ReadTarget) : Except Error (List UInt8) → Session
  | .error _ => s
  | .ok bytes =>
    match target with
    | .window r => s.storeMemory r.first r.last bytes
    | .watch r => { s with watches := s.watches.store r.address bytes }

/-! ## Resetting -/

/-- Begins a new session with the simulator. -/
def reset (c : Controller) (t : TaskId) (role : Role) (result : Except Error Reply) : Controller :=
  (c.setState .stopped).call t role (.begin c.settings.mode) (.reset result)

/-- Goes on once the begin of a reset has been answered, whatever the answer is. -/
def afterReset (c : Controller) (t : TaskId) (role : Role) (result : Except Error Reply) :
    Controller :=
  let c := c.withSession Session.clear
  let c := c.publishOf ViewMessage.ofRegisters
  let c := c.publishOf ViewMessage.ofListings
  let c := c.publishOf ViewMessage.ofWatches
  let c := c.publishOf ViewMessage.ofMemory
  (c.setState .idle).conclude t role result

/-! ## Stepping -/

/-- Sends a step. -/
def sendStep (c : Controller) (t : TaskId) (role : Role) : Controller := c.call t role .step .step

/-- Goes on once a step has been answered. -/
def afterStep (c : Controller) (t : TaskId) (role : Role) :
    Except Error RegisterSnapshot → Controller
  | .error e => (c.publish (.notice e.message)).reset t role (.error e)
  | .ok next =>
    let (session, report) := c.session.applyStep next
    let c := { c with session }.publishOf ViewMessage.ofRegisters
    let c := report.focused.elim c fun file => c.publish (.activeListing file)
    match report.verdict with
    | .finished => c.reset t role (.ok .done)
    | verdict => c.refresh t role (.step verdict)

/-! ## Looping -/

/-- Ends a loop that was asked to halt. A stop leaves the state to the one who asked. -/
def leaveLoop (c : Controller) (t : TaskId) (halt : Halt) : Controller :=
  match halt with
  | .pause => (c.setState .paused).endLoop t
  | .stop => c.endLoop t

/-- Begins a turn of a loop. -/
def beginTurn (c : Controller) (t : TaskId) (asked : Option Halt) : Controller :=
  match asked with
  | some halt => c.leaveLoop t halt
  | none => (c.suspend t (.loop none) .asleep).note (.slept t c.delay)

/-- Goes on after the delay, with a step if the guard is free. -/
def afterDelay (c : Controller) (t : TaskId) (asked : Option Halt) : Controller :=
  match asked, c.guard with
  | some halt, _ => c.leaveLoop t halt
  | none, none => (c.hold t).sendStep t (.loop none)
  | none, some _ => { c with line := c.line ++ [t] }.suspend t (.loop none) .inLine

/-- Goes on with the guard. -/
def withGuard (c : Controller) (t : TaskId) (asked : Option Halt) : Controller :=
  match asked with
  | some halt => c.release.leaveLoop t halt
  | none => c.sendStep t (.loop none)

/-- Goes on once a step of a loop has been refreshed. -/
def endTurn (c : Controller) (t : TaskId) (asked : Option Halt) (verdict : StepVerdict) :
    Controller :=
  match verdict with
  | .continue => c.release.beginTurn t asked
  | _ => (c.setState .paused).conclude t (.loop asked) (.ok .done)

/-- Makes a loop and ends the request that asked for it. -/
def startLoop (c : Controller) (t : TaskId) : Controller :=
  let c := c.setState .running
  let loop := c.nextTask
  let c := { c with nextTask := loop + 1, handle := some loop }.suspend loop (.loop none) .turn
  (c.note (.ready loop)).conclude t .request (.ok .done)

/-! ## Loading -/

/-- Begins to load the program. -/
def load (c : Controller) (t : TaskId) (goal : LoadGoal) : Controller :=
  if c.settings.request.filePaths.isEmpty then c.conclude t .request (.error .noProject)
  else (c.setState .loading).call t .request (.begin c.settings.mode) (.begin goal)

/-- Gives up a load. -/
def failLoad (c : Controller) (t : TaskId) (e : Error) : Controller :=
  ((c.publish (.notice e.message)).setState .idle).conclude t .request (.error e)

/-- Goes on once the begin of a load has been answered. -/
def afterBegin (c : Controller) (t : TaskId) (goal : LoadGoal) : Except Error Unit → Controller
  | .error e => c.failLoad t e
  | .ok () => c.call t .request (.load c.settings.request) (.load goal)

/-- Goes on once a load has been answered. -/
def afterLoad (c : Controller) (t : TaskId) (goal : LoadGoal) :
    Except Error LoadOutcome → Controller
  | .error e => c.failLoad t e
  | .ok outcome =>
    let (session, report) := c.session.applyLoad outcome
    let c := { c with session }.publishOf ViewMessage.ofErrors
    match report with
    | .failed place =>
      let c := place.elim c fun p => c.publish (.reveal p)
      (c.setState .idle).conclude t .request (.ok .done)
    | .loaded =>
      let c := c.publishOf ViewMessage.ofRegisters
      let c := c.publishOf ViewMessage.ofListings
      c.refresh t .request (.load goal)

/-- Goes on once the views have been refreshed. -/
def afterRefresh (c : Controller) (t : TaskId) (role : Role) (next : AfterRefresh) : Controller :=
  let c := c.publishOf ViewMessage.ofMemory
  let c := c.publishOf ViewMessage.ofWatches
  match next, role with
  | .load .run, _ => (c.setState .ready).startLoop t
  | .load .step, _ => (c.setState .ready).conclude t .request (.ok .done)
  | .step _, .request => (c.setState .paused).conclude t .request (.ok .done)
  | .step verdict, .loop asked => c.endTurn t asked verdict

/-- Takes the answer to one read of a refresh. -/
def afterRead (c : Controller) (t : TaskId) (role : Role) (pending : List PendingRead)
    (next : AfterRefresh) (slot : Nat) (result : Except Error (List UInt8)) : Controller :=
  match pending.find? (·.slot == slot) with
  | none => c
  | some p =>
    let c := c.withSession (storeRead · p.target result)
    let rest := pending.filter (·.slot != slot)
    if rest.isEmpty then c.afterRefresh t role next else c.suspend t role (.refresh rest next)

end Controller
end SicDebugger
