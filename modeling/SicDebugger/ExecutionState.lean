/-!
# Execution states

What the debugged program is doing, as the views are told. Nothing is loaded while idle; a loaded
program is ready before its first step and paused after a later one.
-/

namespace SicDebugger

/-- What the debugged program is doing. -/
inductive ExecutionState where
  | idle
  | loading
  | ready
  | running
  | paused
  | stopped
deriving DecidableEq, Repr, Inhabited

namespace ExecutionState

/-- All states. -/
def all : List ExecutionState := [idle, loading, ready, running, paused, stopped]

/-- The name of a state in messages. -/
def name : ExecutionState → String
  | idle => "Idle"
  | loading => "Loading"
  | ready => "Ready"
  | running => "Running"
  | paused => "Paused"
  | stopped => "Stopped"

/-- The word for a state in error texts. -/
def word : ExecutionState → String
  | idle => "idle"
  | loading => "loading"
  | ready => "ready"
  | running => "running"
  | paused => "paused"
  | stopped => "stopped"

/-- The state of a name. -/
def ofName? (s : String) : Option ExecutionState := all.find? (·.name == s)

theorem ofName?_name (s : ExecutionState) : ofName? s.name = some s := by cases s <;> decide

end ExecutionState
end SicDebugger
