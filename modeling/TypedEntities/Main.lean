import TypedEntities.Program

/-!
# The command line

Reads the arguments, the environment and the settings files, runs the program, and writes what it
made. The program has no network of its own: its requests stay without an answer.
-/

namespace TypedEntities.Main

open TypedEntities.CommandLine

/-- The values of the variables that the program looks at. -/
def readEnvironment : IO (List (String × String)) := do
  let names := generateOptions.filterMap OptionSpec.variableName
  names.filterMapM fun name => do
    return (← IO.getEnv name).map fun value => (name, value)

/-- Where programs keep their settings. -/
def readConfigDirectory : IO (Option String) := do
  match ← IO.getEnv "XDG_CONFIG_HOME", ← IO.getEnv "HOME" with
  | some directory, _ => return some directory
  | none, some home => return some (Path.join home ".config")
  | none, none => return none

/-- The text of a file, if it can be read. -/
def readText (path : String) : IO (Option String) := do
  try
    return some (← IO.FS.readFile path)
  catch _ => return none

/-- What can be read at the given paths. -/
def readDisk (paths : List String) : IO Disk := do
  let texts ← paths.mapM fun path => do
    return (path, ← readText path)
  let text? (path : String) : Option String :=
    (texts.find? fun entry => entry.1 = path).bind Prod.snd
  return ⟨fun path => (text? path).isSome, text?⟩

/-- Files in memory below a directory. -/
def sinkBelow (directory : String) : Sink MemoryFiles := fun path text files =>
  MemoryFiles.sink (Path.join directory path) text files

/-- Writes files from memory to the disk. -/
def writeFiles (files : MemoryFiles) : IO Unit :=
  files.files.values.forM fun file => do
    if let some parent := Path.parent? file.path then
      if parent ≠ "" then IO.FS.createDirAll parent
    IO.FS.writeFile file.path file.text

end TypedEntities.Main

section

open TypedEntities TypedEntities.Main

/-- Runs the program on its arguments. -/
def main (arguments : List String) : IO UInt32 := do
  let entries ← readEnvironment
  let environment (name : String) : Option String :=
    (entries.find? fun entry => entry.1 = name).map Prod.snd
  let configDirectory ← readConfigDirectory
  let disk ← readDisk (Program.settingsFiles environment configDirectory arguments)
  let colours := (← (← IO.getStdout).isTty) && (← IO.getEnv "NO_COLOR").isNone
  let surroundings : Surroundings := ⟨environment, disk, configDirectory, colours⟩
  let (outcome, files) :=
    Program.run surroundings Remote.Exchange.offline () sinkBelow arguments MemoryFiles.empty
  writeFiles files
  IO.print outcome.output
  return (outcome.exit.code % 256).toNat.toUInt32

end
