import SicDebugger.Binary64.Decimal
import SicDebugger.Configuration.FileTree
import SicDebugger.Configuration.SocketAddress
import SicDebugger.Controller.Settings
import SicDebugger.Text.Blank

/-!
# Configuration

The debugger is configured by its arguments, the project folder and source files in it, and by
variables of the environment. A blank variable counts as one that is not set. Without named files
the sources are all assembler files in the folder itself, by name. The parts are settled in a fixed
order, and the first that is wrong is the error.
-/

namespace SicDebugger

/-- What the configuration is read from. -/
structure Surroundings where
  workingFolder : String
  /-- The entries of the folder of a path, if the path is that of a folder. -/
  entries? : String → Option (List FolderEntry)
  setting? : String → Option String
  arguments : List String

/-- What the debugger is started with. -/
structure Configuration where
  simulatorUrl : String
  bind : SocketAddress
  staticFolder : String
  projectRoot : String
  controller : ControllerSettings
deriving DecidableEq, Repr

/-- What is wrong with the configuration. -/
inductive ConfigurationError where
  | notAFolder (root : String)
  | unknownMode (reason : String)
  | notANumber (raw : String)
  | invalidDelay (error : Error)
  | notAnAddress (setting raw : String) (fault : Text.NumeralFault)
  | emptyWindow
  | windowPastEnd
  | notASocketAddress
deriving DecidableEq, Repr

/-- The wording of what is wrong with the configuration. -/
def ConfigurationError.message : ConfigurationError → String
  | notAFolder root => "project root " ++ root ++ " is not a directory"
  | unknownMode reason => reason
  | notANumber raw => "SICIDE_STEP_DELAY_MS=" ++ raw ++ " is not a number: invalid float literal"
  | invalidDelay e => e.message
  | notAnAddress setting raw fault =>
    setting ++ ": " ++ Text.quoted raw ++ " is not an address: " ++ fault.message
  | emptyWindow => "SICIDE_MEMORY_LEN must be at least 1"
  | windowPastEnd => "memory window runs past the address space"
  | notASocketAddress => "SICIDE_BIND is not a socket address: invalid socket address syntax"

namespace Configuration

/-- The variables of the environment that are settings. -/
def settings : List String :=
  ["SICIDE_MODE", "SICIDE_STEP_DELAY_MS", "SICIDE_OUTPUT_DIR", "SICIDE_MEMORY_START",
    "SICIDE_MEMORY_LEN", "SICIDE_BIND", "SICIDE_MAIN", "SICIDE_SIMULATOR_URL", "SICIDE_STATIC_DIR"]

/-- A path behind a folder. An absolute path stands for itself. -/
def joinPath (folder path : String) : String :=
  if path.toList.head? = some '/' then path
  else if folder = "" ∨ folder.toList.getLast? = some '/' then folder ++ path
  else folder ++ "/" ++ path

/-- Whether a file name has the extension `asm` in any case. A dot at the front starts none. -/
def isSource (name : String) : Bool :=
  match (Text.split '.' name.toList).reverse with
  | last :: stem :: rest =>
    last.map Char.toLower = "asm".toList ∧ ¬ (stem = [] ∧ rest = [])
  | _ => false

/-- The source files among the entries of a folder, by name. -/
def sources (folder : String) (entries : List FolderEntry) : List String :=
  let names := (entries.filter fun e => e.isFile && isSource e.name).map (·.name)
  (names.mergeSort fun a b => decide (a ≤ b)).map (joinPath folder)

/-- A variable that is set and not blank. -/
def given? (s : Surroundings) (setting : String) : Option String :=
  (s.setting? setting).filter fun v => !(Text.trimChars v.toList).isEmpty

/-- The mode to run. -/
def mode (s : Surroundings) : Except ConfigurationError MachineMode :=
  match given? s "SICIDE_MODE" with
  | none => .ok .sicxe
  | some text => (MachineMode.ofText text).mapError .unknownMode

/-- The first step delay, a second where none is given. -/
def delay (s : Surroundings) : Except ConfigurationError StepDelay :=
  match given? s "SICIDE_STEP_DELAY_MS" with
  | none => (StepDelay.ofMs (.ofNat 1000)).mapError .invalidDelay
  | some raw =>
    match Binary64.ofText? (Text.trim raw) with
    | none => .error (.notANumber raw)
    | some ms => (StepDelay.ofMs ms).mapError .invalidDelay

/-- Reads an address in decimal, or in hexadecimal behind a mark. -/
def readAddress (text : List Char) : Except Text.NumeralFault Nat :=
  match text with
  | '0' :: 'x' :: digits => Text.readNumeral 16 UInt32.size digits
  | '0' :: 'X' :: digits => Text.readNumeral 16 UInt32.size digits
  | digits => Text.readNumeral 10 UInt32.size digits

/-- A number of 32 bits. -/
def address (s : Surroundings) (setting : String) (usual : Nat) : Except ConfigurationError Nat :=
  match given? s setting with
  | none => .ok usual
  | some raw =>
    let text := Text.trimChars raw.toList
    (readAddress text).mapError (.notAnAddress setting (String.ofList text))

/-- The first memory window. -/
def window (s : Surroundings) : Except ConfigurationError AddressRange := do
  let start ← address s "SICIDE_MEMORY_START" 0
  let length ← address s "SICIDE_MEMORY_LEN" 256
  if length = 0 then .error .emptyWindow
  else
    match AddressRange.ofLength? (UInt32.ofNat start) length with
    | some range => .ok range
    | none => .error .windowPastEnd

/-- The address to listen at. -/
def bindAddress (s : Surroundings) : Except ConfigurationError SocketAddress :=
  match SocketAddress.ofText? ((given? s "SICIDE_BIND").getD "0.0.0.0:3000") with
  | some a => .ok a
  | none => .error .notASocketAddress

/-- Reads the configuration. -/
def read (s : Surroundings) : Except ConfigurationError Configuration := do
  let root := s.arguments.headD s.workingFolder
  match s.entries? root with
  | none => .error (.notAFolder root)
  | some entries =>
    let named := s.arguments.drop 1
    let filePaths := if named.isEmpty then sources root entries else named.map (joinPath root)
    let mode ← mode s
    let delay ← delay s
    let window ← window s
    let bind ← bindAddress s
    let request : LoadRequest := {
      filePaths
      outputDir := joinPath root ((given? s "SICIDE_OUTPUT_DIR").getD "out")
      main := given? s "SICIDE_MAIN" }
    return {
      simulatorUrl := (given? s "SICIDE_SIMULATOR_URL").getD "http://127.0.0.1:9090"
      bind
      staticFolder := (given? s "SICIDE_STATIC_DIR").getD "frontend/dist"
      projectRoot := root
      controller := { mode, request, delay, projectRoot := some root, window } }

end Configuration
end SicDebugger
