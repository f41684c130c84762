import SicDebugger.Configuration.Basic

/-!
# Command line

The command takes the project folder and source files as its arguments and the other settings from
the environment. It settles the configuration and shows it, or says what is wrong with it.
-/

namespace SicDebugger

/-- The lines that show a configuration. -/
def Configuration.report (c : Configuration) : List String :=
  [ "project " ++ c.projectRoot,
    "simulator " ++ c.simulatorUrl,
    "views at http://" ++ c.bind.toText,
    "mode " ++ c.controller.mode.word,
    "delay " ++ c.controller.delay.ms.toText ++ " ms",
    "output " ++ c.controller.request.outputDir ] ++
    c.controller.request.filePaths.map ("source " ++ ·)

/-- The entries of the folder of a path, or none where no folder can be listed. The empty path is
that of no folder. -/
def listFolder (path : String) : IO (Option (List FolderEntry)) := do
  if path = "" then return none
  try
    let entries ← ((← IO.currentDir) / path).readDir
    let listed ← entries.toList.mapM fun e => do
      return { name := e.fileName, isFile := !(← e.path.isDir) }
    return some listed
  catch _ => return none

/-- The surroundings of the command. -/
def surroundings (arguments : List String) : IO Surroundings := do
  let workingFolder := (← IO.currentDir).toString
  let root := arguments.headD workingFolder
  let listed ← listFolder root
  let settings ← Configuration.settings.filterMapM fun name => do
    return (← IO.getEnv name).map (name, ·)
  return {
    workingFolder
    entries? := fun path => if path = root then listed else none
    setting? := fun name => settings.lookup name
    arguments }

end SicDebugger

open SicDebugger in
/-- Settles the configuration and shows it. -/
def main (arguments : List String) : IO UInt32 := do
  match Configuration.read (← surroundings arguments) with
  | .ok c =>
    for line in c.report do
      IO.println line
    return 0
  | .error e =>
    IO.eprintln ("Error: " ++ e.message)
    return 1
