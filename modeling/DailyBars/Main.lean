import DailyBars.Run
import DailyBars.Store.Text

/-!
# The program

Reads the files that a command may look at, runs the command over them, prints its answer and
writes back what has changed. For an ingest the names of the files in the directory come from
standard input, one on a line, so that the caller chooses the tables; only delimited text is
decoded.
-/

namespace DailyBars

/-- What stands at a location on disk. -/
def readNode (location : Location) : IO (Option Node) := do
  try
    let content := Text.decode (← IO.FS.readBinFile (Files.pathOf location)).toList
    let store := (Text.wholeText? content).bind fun text ↦ Store.ofText? (String.ofList text)
    return some (store.elim (.file content) .store)
  catch error =>
    match error with
    | .inappropriateType .. => return some .directory
    | _ => return none

/-- The files with what stands on disk along a path. -/
def readAlong (files : Files) (path : String) : IO Files :=
  (Files.waypoints path).foldlM (fun files location ↦ do
    if (files.node? location).isSome then return files
    match ← readNode location with
    | some node => return files.put location node
    | none => return files) files

/-- The variables of the environment that settings depend on. -/
def readEnvironment : IO Environment := do
  let names := [Settings.configVariable, Settings.databaseVariable, Settings.calendarVariable]
  let values ← names.mapM fun name ↦ do return (name, ← IO.getEnv name)
  return fun name ↦ (values.find? fun entry ↦ entry.1 == name).bind (·.2)

/-- The lines of a stream. -/
partial def readLines (stream : IO.FS.Stream) : IO (List String) := do
  let line ← stream.getLine
  if line.isEmpty then return []
  return (String.ofList (line.toList.filter (· ≠ '\n'))) :: (← readLines stream)

/-- The paths that a command may look at besides the store. -/
def commandPaths (command : Command) : IO (List String) := do
  let tables ←
    match command with
    | .ingest directory .. => do
      let names ← readLines (← IO.getStdin)
      pure (directory :: names.map (Files.join directory))
    | _ => pure []
  return command.symbolsPath?.toList ++ tables

/-- The paths that the store of a configuration may be at. -/
def storePaths (config : Config) : List String :=
  let place := (StoreAddress.ofText? .create config.database).map StoreAddress.place
  match place with
  | some (.file path) => [path, Files.parentPath config.database]
  | _ => []

/-- Writes a node, unless it is as before. -/
def writeBack (before : Files) (location : Location) (node : Node) : IO Unit := do
  if before.node? location = some node then return
  let path := Files.pathOf location
  match node with
  | .directory => IO.FS.createDirAll path
  | .store store => IO.FS.writeFile path store.toText
  | .file content => IO.FS.writeBinFile path ⟨(Text.encode content).toArray⟩

/-- Runs a command over the files on disk. -/
def runOnDisk (invocation : Invocation) : IO UInt32 := do
  let environment ← readEnvironment
  let configPath :=
    invocation.config <|> Settings.setting? environment Settings.configVariable
  let files ← configPath.toList.foldlM readAlong .empty
  let config := (Settings.resolve files invocation.config environment).toOption
  let configured :=
    config.elim [] fun config ↦ storePaths config ++ config.calendar.sessionsFile.toList
  let paths := configured ++ (← commandPaths invocation.command)
  let before ← paths.foldlM readAlong files
  let (result, after) := invocation.run (fun _ ↦ none) environment before
  after.nodes.reverse.forM fun (location, node) ↦ writeBack before location node
  match result with
  | .ok printout =>
    printout.lines.forM fun line ↦ IO.println line
    printout.notes.forM fun line ↦ IO.eprintln line
    return 0
  | .error (.store .stopped) => return 101
  | .error failure =>
    IO.eprintln s!"Error: {failure.message}"
    return 1

end DailyBars

open DailyBars in
/-- The program: `init`, `ingest`, `status`, `read`, `value` or `last-traded` with its options. -/
def main (words : List String) : IO UInt32 := do
  match Invocation.ofWords? words with
  | some invocation => runOnDisk invocation
  | none =>
    IO.eprintln "error: unexpected arguments; see the commands init, ingest, status, read, value"
    return 2
