import SicDebugger.AddressRange
import SicDebugger.Controller.Delay
import SicDebugger.Simulator.Request

/-!
# Settings of the controller

What a controller is told when it is made: the machine to run, the sources to load, the first step
delay, the root of the project, and the first memory window.
-/

namespace SicDebugger

/-- The settings of a controller. -/
structure ControllerSettings where
  mode : MachineMode
  request : LoadRequest
  delay : StepDelay
  projectRoot : Option String
  window : AddressRange
deriving DecidableEq, Repr

end SicDebugger
