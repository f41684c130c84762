import SicDebugger.Rehearsal.Clock
import SicDebugger.Rehearsal.Script
import SicDebugger.View.Hub

/-!
# Rehearsals

A rehearsal is a hub on a virtual clock with a scripted simulator. An answer comes after the time
that the script says, a loop wakes after its delay, and tasks that become ready go on one after the
other.
-/

namespace SicDebugger

/-- A hub, the script of its simulator, and what has happened, the latest first. -/
structure Stage where
  hub : Hub
  script : Script
  record : List Occurrence := []
deriving Repr

/-- A hub on its way through time. -/
structure Rehearsal where
  stage : Stage
  clock : Clock HubEvent := {}

namespace Stage

/-- The cues of an occurrence. A request takes the next reply of the script. -/
def cue (s : Stage) : HubOccurrence → Stage × List (Cue HubEvent)
  | .controller o =>
    let s := { s with record := o :: s.record }
    match o with
    | .sent t slot r =>
      let (reply, script) := s.script.take r
      ({ s with script }, [.after reply.delay (.controller (.ofArrival t slot r reply.arrival))])
    | .slept t delay => (s, [.after delay.wholeMs (.controller (.resumed t))])
    | .ready t => (s, [.inTurn (.controller (.resumed t))])
    | _ => (s, [])
  | .waitingFrame l => (s, [.atOnce (.look l)])
  | .detaching l r => (s, [.inTurn (.detach l r)])

/-- The cues of occurrences. -/
def cues (s : Stage) (news : List HubOccurrence) : Stage × List (Cue HubEvent) :=
  news.foldl (fun (s, cues) o => ((s.cue o).1, cues ++ (s.cue o).2)) (s, [])

/-- Does what an event asks for. An event that cannot happen any more is passed over. -/
def perform (s : Stage) (e : HubEvent) : Stage × List (Cue HubEvent) :=
  match s.hub.perform? e with
  | none => (s, [])
  | some (hub, news) => { s with hub }.cues news

/-- Whether a request has come to its end, as far as the record goes back. -/
def hasAnswered (s : Stage) (t : TaskId) : Bool :=
  s.record.any fun
    | .answered task _ => task == t
    | _ => false

end Stage

namespace Rehearsal

/-- More events than any script brings about. -/
def patience : Nat := Nat.pow 10 9

/-- The rehearsal of a controller. -/
def ofController (c : Controller) (script : Script) : Rehearsal where
  stage := { hub := { controller := c }, script }

/-- Goes on until a mark is reached or something is true. -/
def run (r : Rehearsal) (isOver : Stage → Bool) : Rehearsal :=
  let (stage, clock) := Clock.run Stage.perform isOver patience (r.stage, r.clock)
  ⟨stage, clock⟩

/-- Has an event done before anything else. -/
def interject (r : Rehearsal) (e : HubEvent) : Rehearsal :=
  { r with clock := { r.clock with queue := .event e :: r.clock.queue } }

/-- Has an event done behind all that is to be done now. -/
def enqueue (r : Rehearsal) (e : HubEvent) : Rehearsal :=
  { r with clock := { r.clock with queue := r.clock.queue ++ [.event e] } }

/-- Goes on until a request has come to its end. -/
def runToEnd (r : Rehearsal) (t : TaskId) : Rehearsal := r.run (·.hasAnswered t)

/-- Goes on for some milliseconds. What falls due at the last moment is done if it was cued
before. -/
def wait (r : Rehearsal) (ms : Nat) : Rehearsal :=
  { r with clock := r.clock.mark ms }.run fun _ => false

/-- Takes what has happened since it was last taken, the earliest first. -/
def takeRecord (r : Rehearsal) : Rehearsal × List Occurrence :=
  ({ r with stage := { r.stage with record := [] } }, r.stage.record.reverse)

end Rehearsal
end SicDebugger
