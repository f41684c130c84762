import SicDebugger.Json.Record
import SicDebugger.Text.Blank
import SicDebugger.Text.Quoted

/-!
# Machine modes

The simulator runs the basic machine or the extended one. A mode is chosen by its word in any case,
blanks set aside.
-/

namespace SicDebugger

/-- The machine that the simulator runs. -/
inductive MachineMode where
  | sic
  | sicxe
deriving DecidableEq, Repr, Inhabited

namespace MachineMode

/-- The word for a mode. -/
def word : MachineMode → String
  | sic => "sic"
  | sicxe => "sicxe"

/-- The mode of a word. -/
def ofWord? : String → Option MachineMode
  | "sic" => some sic
  | "sicxe" => some sicxe
  | _ => none

/-- The text with the letters of ASCII in lower case. -/
def lower (s : String) : String := String.ofList (s.toList.map Char.toLower)

/-- Reads a chosen mode, or says what is wrong with it. -/
def ofText (text : String) : Except String MachineMode :=
  let word := lower (Text.trim text)
  match ofWord? word with
  | some m => .ok m
  | none =>
    .error ("unknown machine mode " ++ Text.quoted word ++ " (use \"sic\" or \"sicxe\")")

/-- Reads a mode from its value. -/
def ofJson? (j : Json) : Option MachineMode := (j.choice? false).bind ofWord?

end MachineMode
end SicDebugger
