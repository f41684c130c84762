import SicDebugger.Controller.Activity

/-!
# Carrying out requests

A run or a step is refused while the guard is taken or a run is on. It loads the program where
nothing is loaded, and steps where something is. A pause or a stop asks the loop to halt and waits
for its end; a stop resets in any case. The other requests change the session and tell the views.
-/

namespace SicDebugger

namespace Controller

/-- Refuses a request, or carries it out with the guard. -/
def guarded (c : Controller) (t : TaskId) (go : Controller → Controller) : Controller :=
  match c.guard with
  | some _ => c.answer t (.error .busy)
  | none => go (c.hold t)

/-- Starts a continuous run. -/
def run (c : Controller) (t : TaskId) : Controller :=
  c.guarded t fun c =>
    match c.state with
    | .running | .loading => c.conclude t .request (.error .busy)
    | .idle | .stopped => c.load t .run
    | .ready | .paused => c.startLoop t

/-- Takes one step, or loads the program. -/
def step (c : Controller) (t : TaskId) : Controller :=
  c.guarded t fun c =>
    match c.state with
    | .running | .loading => c.conclude t .request (.error .busy)
    | .idle | .stopped => c.load t .step
    | .ready | .paused => (c.setState .running).sendStep t .request

/-- Asks a loop to halt, and wakes it if it sleeps. -/
def askHalt (c : Controller) (loop : TaskId) (halt : Halt) : Controller :=
  match c.tasks[loop]? with
  | some ⟨.loop asked, wait⟩ =>
    let c := c.suspend loop (.loop (some (Halt.strengthen asked halt))) wait
    match wait with
    | .asleep => c.note (.ready loop)
    | _ => c
  | _ => c

/-- The part of a stop that follows the end of the loop. -/
def stopNow (c : Controller) (t : TaskId) : Controller :=
  c.guarded t fun c => c.reset t .request (.ok .done)

/-- Goes on once a loop that was asked to halt has ended. -/
def afterLoop (c : Controller) (t : TaskId) (halt : Halt) : Controller :=
  match halt with
  | .pause => c.answer t (.ok .done)
  | .stop => c.stopNow t

/-- Takes the handle of the loop away, asks it to halt and waits for its end. Where no loop is
alive the request goes on by itself. -/
def haltLoop (c : Controller) (t : TaskId) (halt : Halt) (otherwise : Controller → Controller) :
    Controller :=
  let taken := { c with handle := none }
  match c.handle with
  | some loop =>
    if c.tasks.contains loop then
      (taken.askHalt loop halt).suspend t .request (.loopEnd loop halt)
    else otherwise taken
  | none => otherwise taken

/-- Pauses the continuous run. -/
def pause (c : Controller) (t : TaskId) : Controller :=
  c.haltLoop t .pause fun c =>
    match c.state with
    | .ready | .paused => c.answer t (.ok .done)
    | .running | .loading => c.answer t (.error .busy)
    | s => c.answer t (.error (.invalidTransition s "pause"))

/-- Stops whatever is on and resets the machine. -/
def stop (c : Controller) (t : TaskId) : Controller := c.haltLoop t .stop (·.stopNow t)

/-- Turns a breakpoint over. -/
def toggleBreakpoint (c : Controller) (t : TaskId) (file : String) (row : UInt64) : Controller :=
  let sets := c.session.listings.toggleSets file row
  let c := c.withSession fun s => { s with listings := s.listings.toggle file row }
  (c.publishOf ViewMessage.ofListings).answer t (.ok (.flag sets))

/-- Makes a listing active. -/
def selectListing (c : Controller) (t : TaskId) (file : String) : Controller :=
  match c.session.listings.select? file with
  | some listings =>
    let c := c.withSession fun s => { s with listings }
    (c.publish (.activeListing file)).answer t (.ok (.flag true))
  | none => c.answer t (.ok (.flag false))

/-- Changes the delay of continuous runs. -/
def setDelay (c : Controller) (t : TaskId) (ms : Binary64) : Controller :=
  match StepDelay.ofMs ms with
  | .ok delay => { c with delay }.answer t (.ok .done)
  | .error e => c.answer t (.error e)

/-- Whether the memory window can be read between two steps. -/
def betweenSteps : ExecutionState → Bool
  | .ready | .paused => true
  | _ => false

/-- Moves the memory window, and reads it at once between two steps. -/
def setWindow (c : Controller) (t : TaskId) (first last : UInt32) : Controller :=
  match AddressRange.between first last with
  | .error e => c.answer t (.error e)
  | .ok range =>
    let c := c.withSession (·.setWindow range)
    if betweenSteps c.state ∧ c.guard = none then
      (c.hold t).call t .request (readRequest range) (.windowRead range)
    else (c.publishOf ViewMessage.ofMemory).answer t (.ok .done)

/-- Goes on once the moved memory window has been read. -/
def afterWindow (c : Controller) (t : TaskId) (range : AddressRange)
    (result : Except Error (List UInt8)) : Controller :=
  let c := c.withSession (storeRead · (.window range) result)
  (c.release.publishOf ViewMessage.ofMemory).answer t (.ok .done)

/-- Checks source texts. -/
def check (c : Controller) (t : TaskId) (texts names : List String) : Controller :=
  if texts.isEmpty ∨ texts.length ≠ names.length then
    c.answer t (.error (.mismatchedSources texts.length names.length))
  else c.call t .request (.check texts names) .check

/-- Takes what a syntax check says about files. -/
def applyCheck (d : DiagnosticTable) (files : List CheckedFile) : DiagnosticTable :=
  files.foldl (fun d f =>
    d.replaceOrigin f.name .check (f.errors.map (Diagnostic.ofAssembler · .check))) d

/-- Goes on once a syntax check has been answered. -/
def afterCheck (c : Controller) (t : TaskId) : Except Error (List CheckedFile) → Controller
  | .error e => c.answer t (.error e)
  | .ok files =>
    let c := c.withSession fun s => { s with diagnostics := applyCheck s.diagnostics files }
    (c.publishOf ViewMessage.ofErrors).answer t (.ok .done)

/-- Takes up a request of a view as a task of its own. -/
def request (c : Controller) (r : ViewRequest) : Controller :=
  let t := c.nextTask
  let c := { c with nextTask := t + 1 }
  match r with
  | .run => c.run t
  | .step => c.step t
  | .pause => c.pause t
  | .stop => c.stop t
  | .toggleBreakpoint file row => c.toggleBreakpoint t file row
  | .selectListing file => c.selectListing t file
  | .setDelay ms => c.setDelay t ms
  | .setWindow first last => c.setWindow t first last
  | .check texts names => c.check t texts names
  | .queryState => c.answer t (.ok (.picture c.picture))

end Controller
end SicDebugger
