import SicDebugger.AddressRange
import SicDebugger.Json.Writer
import SicDebugger.Simulator.Mode

/-!
# Requests to the simulator

Each request goes to an endpoint of its own, with a record as its body.
-/

namespace SicDebugger

/-- The sources that a load assembles and where its output goes. -/
structure LoadRequest where
  filePaths : List String
  outputDir : String
  outputName : Option String := none
  main : Option String := none
deriving DecidableEq, Repr, Inhabited

/-- The value of a load request. A name that is not given is left away. -/
def LoadRequest.toJson (r : LoadRequest) : Json :=
  let given := fun (key : String) (name : Option String) =>
    (name.map fun n => (key, Json.string n)).toList
  .object ([("filePaths", .ofList .string r.filePaths), ("outputDir", .string r.outputDir)] ++
    given "outputName" r.outputName ++ given "main" r.main)

/-- A request to the simulator. -/
inductive SimulatorRequest where
  /-- Resets the machine and begins a session. -/
  | begin (mode : MachineMode)
  | load (request : LoadRequest)
  | step
  | memory (first last : UInt32)
  | check (texts names : List String)
deriving DecidableEq, Repr, Inhabited

namespace SimulatorRequest

/-- The endpoint of a request. -/
def endpoint : SimulatorRequest → String
  | begin _ => "begin"
  | load _ => "load"
  | step => "step"
  | memory .. => "memory"
  | check .. => "syntax-check"

/-- The value of a request. -/
def toJson : SimulatorRequest → Json
  | begin mode => .object [("type", .string mode.word)]
  | load request => request.toJson
  | step => .object []
  | memory first last => .object [("start", .ofNat first.toNat), ("end", .ofNat last.toNat)]
  | check texts names =>
    .object [("texts", .ofList .string texts), ("fileNames", .ofList .string names)]

end SimulatorRequest
end SicDebugger
