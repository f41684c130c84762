import SicDebugger.Binary64.Shortest
import SicDebugger.ExecutionState
import SicDebugger.Text.Quoted

/-!
# Errors

Every way in which a request to the debugger can fail, with its cause as data. The wording is given
once, in `Error.message`.
-/

namespace SicDebugger

/-- The cause of a failed request. -/
inductive Error where
  /-- The simulator could not be reset to begin a session. -/
  | remoteUnavailable (reason : String)
  /-- The simulator answered that it refuses the request. -/
  | remote (reason : String)
  /-- The request or its answer was lost or could not be understood. -/
  | transport (reason : String)
  /-- Another load or step is still under way. -/
  | busy
  /-- The request makes no sense in the present state. -/
  | invalidTransition (state : ExecutionState) (action : String)
  /-- A delay that is negative, not a number, or too long to measure. -/
  | invalidDelay (ms : Binary64)
  /-- A text that denotes no float register value. -/
  | invalidFloat (text : String)
  /-- A memory range that ends before it starts. -/
  | invalidRange (start stop : UInt32)
  /-- Source texts and file names that do not pair up. -/
  | mismatchedSources (texts files : Nat)
  /-- There is no source file to load. -/
  | noProject
deriving DecidableEq, Repr

namespace Error

/-- The wording of an error. -/
def message : Error → String
  | remoteUnavailable reason => "simulator unavailable: " ++ reason
  | remote reason => "simulator rejected request: " ++ reason
  | transport reason => "transport failure: " ++ reason
  | busy => "a load or step is already in flight"
  | invalidTransition state action => "cannot " ++ action ++ " while " ++ state.word
  | invalidDelay ms =>
    "step delay must be a non-negative finite number of milliseconds, got " ++ ms.toText
  | invalidFloat text => "invalid float register value " ++ Text.quoted text
  | invalidRange start stop =>
    "invalid memory range 0x" ++ Text.hexPlain start.toNat ++ "..=0x" ++ Text.hexPlain stop.toNat
  | mismatchedSources texts files =>
    "syntax check needs one text per file name (got " ++ toString texts ++ " texts, " ++
      toString files ++ " names)"
  | noProject => "no source files to load"

end Error
end SicDebugger
