import SicDebugger.Proofs.Run

/-!
# Sections

What a task asks the simulator while it has the guard, with the answers, is a section. There are six
kinds: a begin that fails; a begin and a load that brings no program; a load or a step with the
memory reads that follow it; a step that ends the program or fails, with the begin of the reset; the
begin of a reset alone; and the read of a moved memory window. Which of them a task can come to is
settled by the request that it carries out: a run or a step loads, a step and a loop step, a stop
resets, and the move of the memory window reads it. Syntax checks belong to no section.
-/

namespace SicDebugger

namespace LogEntry

/-- Whether an entry is a call of the simulator or the answer to one. Syntax checks do not count. -/
def isCall : LogEntry → Bool
  | .occurrence (.sent _ _ (.check ..)) => false
  | .occurrence (.sent ..) => true
  | .event _ (.began ..) => true
  | .event _ (.loaded ..) => true
  | .event _ (.stepped ..) => true
  | .event _ (.read ..) => true
  | _ => false

/-- A task asks the simulator by itself, with no other call at the same time. -/
def asked (t : TaskId) (r : SimulatorRequest) : LogEntry := .occurrence (.sent t 0 r)

end LogEntry

/-- The calls of a log with their answers, the earliest first. -/
def calls (log : List LogEntry) : List LogEntry := (log.filter LogEntry.isCall).reverse

open Controller

/-! ## Memory reads -/

/-- The sending of all reads of a refresh. -/
def readsSent (t : TaskId) (targets : List ReadTarget) : List LogEntry :=
  (pendingReads targets).map fun p => .occurrence (.sent t p.slot (readRequest p.target.range))

/-- The answer to a read, with the controller that it finds. -/
structure ReadAnswer where
  found : Controller
  slot : Nat
  result : Except Error (List UInt8)

/-- The entry of the answer to a read of a task. -/
def ReadAnswer.entry (t : TaskId) (a : ReadAnswer) : LogEntry :=
  .event a.found (.read t a.slot a.result)

/-- All reads of a refresh are sent, and after that each is answered once, in any order. -/
def Reads (t : TaskId) (targets : List ReadTarget) (entries : List LogEntry) : Prop :=
  ∃ answers : List ReadAnswer, entries = readsSent t targets ++ answers.map (ReadAnswer.entry t) ∧
    (answers.map (·.slot)).Perm (List.range targets.length)

/-- All reads of a refresh are sent, and some are answered so far. -/
def ReadsSoFar (t : TaskId) (targets : List ReadTarget) (pending : List PendingRead)
    (entries : List LogEntry) : Prop :=
  ∃ answers : List ReadAnswer, entries = readsSent t targets ++ answers.map (ReadAnswer.entry t) ∧
    (answers.map (·.slot) ++ pending.map (·.slot)).Perm (List.range targets.length)

/-! ## Kinds of sections -/

/-- Whether a program is loaded for the request. A loop carries out no request and loads none. -/
def Loads (served : Option ViewRequest) : Prop := served = some .run ∨ served = some .step

/-- Whether a step is taken for the request. A loop carries out no request, and takes steps. -/
def Steps (served : Option ViewRequest) : Prop := served = none ∨ served = some .step

variable (served : Option ViewRequest) (t : TaskId)

/-- The calls of a load or a step that the views are refreshed after, with the reads that the
session needs once the answer has been applied to it. -/
inductive Opening : List LogEntry → List ReadTarget → Prop where
  | load {mode request found found' registers files} (hs : Loads served) :
      Opening [.asked t (.begin mode), .event found (.began t (.ok ())),
          .asked t (.load request), .event found' (.loaded t (.ok (.loaded registers files)))]
        (refreshTargets (found'.session.applyLoaded registers files))
  | step {found next} (hs : Steps served)
      (h : (found.session.applyStep next).2.verdict ≠ .finished) :
      Opening [.asked t .step, .event found (.stepped t (.ok next))]
        (refreshTargets (found.session.applyStep next).1)

/-- Whether the answer to a step means that the machine is reset: it is an error, or the program
counter stayed where it was. -/
def EndsProgram (s : Session) : Except Error RegisterSnapshot → Prop
  | .error _ => True
  | .ok next => (s.applyStep next).2.verdict = .finished

/-- The sections of a task that carries out a request, or is a loop. -/
inductive Section : List LogEntry → Prop where
  /-- A load whose begin fails. -/
  | beginFailed {mode found e} (hs : Loads served) :
      Section [.asked t (.begin mode), .event found (.began t (.error e))]
  /-- A load that fails or brings no program. -/
  | loadFailed {mode request found found' result} (hs : Loads served)
      (h : ∀ registers files, result ≠ .ok (.loaded registers files)) :
      Section [.asked t (.begin mode), .event found (.began t (.ok ())),
        .asked t (.load request), .event found' (.loaded t result)]
  /-- A load or a step, and the memory reads that follow it. -/
  | refreshed {opening targets reads} (h : Opening served t opening targets)
      (hr : Reads t targets reads) : Section (opening ++ reads)
  /-- A step that ends the program or fails, and the begin of the reset. -/
  | ended {found found' answer mode result} (hs : Steps served)
      (h : EndsProgram found.session answer) :
      Section [.asked t .step, .event found (.stepped t answer), .asked t (.begin mode),
        .event found' (.began t result)]
  /-- The reset of a stop. -/
  | reset {mode found result} (hs : served = some .stop) :
      Section [.asked t (.begin mode), .event found (.began t result)]
  /-- The read of a moved memory window. -/
  | windowRead {first last range found result} (hs : served = some (.setWindow first last))
      (hr : AddressRange.between first last = .ok range) :
      Section [.asked t (readRequest range), .event found (.read t 0 result)]

/-- What a task that waits so has of its section so far. A loop in line has nothing yet. -/
inductive Unfinished : Wait → List LogEntry → Prop where
  | begin {goal mode} (hs : Loads served) : Unfinished (.begin goal) [.asked t (.begin mode)]
  | load {goal mode request found} (hs : Loads served) :
      Unfinished (.load goal) [.asked t (.begin mode), .event found (.began t (.ok ())),
        .asked t (.load request)]
  | step (hs : Steps served) : Unfinished .step [.asked t .step]
  | refresh {opening targets reads pending next} (h : Opening served t opening targets)
      (hr : ReadsSoFar t targets pending reads) (hp : pending ≠ []) :
      Unfinished (.refresh pending next) (opening ++ reads)
  | reset {result mode} (hs : served = some .stop) :
      Unfinished (.reset result) [.asked t (.begin mode)]
  | ended {result found answer mode} (hs : Steps served) (h : EndsProgram found.session answer) :
      Unfinished (.reset result) [.asked t .step, .event found (.stepped t answer),
        .asked t (.begin mode)]
  | windowRead {first last range} (hs : served = some (.setWindow first last))
      (hr : AddressRange.between first last = .ok range) :
      Unfinished (.windowRead range) [.asked t (readRequest range)]
  | inLine (hs : served = none) : Unfinished .inLine []

variable {served t}

/-- A section has an answer in it, to the call that it begins with. -/
lemma Section.exists_answer {entries : List LogEntry} (h : Section served t entries) :
    ∃ found e, .event found e ∈ entries := by
  cases h with
  | refreshed hopen _ => cases hopen <;> exact ⟨_, _, .tail _ (.head _)⟩
  | beginFailed | loadFailed | ended | reset | windowRead => exact ⟨_, _, .tail _ (.head _)⟩

/-- All answers of a section come while its task has the guard. -/
def HeldBy (t : TaskId) (entries : List LogEntry) : Prop :=
  ∀ found e, LogEntry.event found e ∈ entries → found.guard = some t

end SicDebugger
