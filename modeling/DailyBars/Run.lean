import DailyBars.Command
import DailyBars.Dataset
import DailyBars.Report
import DailyBars.Settings
import DailyBars.SymbolMap.Document
import DailyBars.Table.File

/-!
# Running commands

A command runs over files and an environment and answers with lines to print, or fails. What it has
written before it fails stays. The settings come first, then the calendar, then the command itself;
an asset is named by its number, or by a symbol in any case of the letters `a` to `z`. What decodes
tables that are not delimited text is given to the command.
-/

namespace DailyBars

/-- Why a command fails. -/
inductive CommandFailure where
  | settings (cause : Settings.Failure)
  | symbols (cause : ConfigError)
  | store (cause : StoreError)
  | noTables (directory : String)
  | inverted (start stop : Day)
  | unknownSymbol (symbol : String)
deriving DecidableEq

def CommandFailure.message : CommandFailure → String
  | settings cause => cause.message
  | symbols cause => cause.message
  | store cause => cause.message
  | noTables directory => s!"no .csv or .parquet tables in {directory}"
  | inverted start stop => s!"--start {start.text} is after --end {stop.text}"
  | unknownSymbol symbol => s!"unknown symbol '{symbol}'"

/-- What a command prints: its output, and notes beside it. -/
structure Printout where
  lines : List String
  notes : List String := []

/-- A run over files that may fail; files that were written before it fails stay written. -/
abbrev Run (α : Type) : Type := ExceptT CommandFailure (StateM Files) α

namespace Run

/-- The answer of a step that the store may refuse. -/
def ofStore {α : Type} (result : Except StoreError α) : Run α :=
  ExceptT.mk (pure (result.mapError .store))

/-- The answer of a step that reads or writes the symbol map. -/
def ofSymbols {α : Type} (result : Except ConfigError α) : Run α :=
  ExceptT.mk (pure (result.mapError .symbols))

/-- The answer of a step that also changes files; they stay changed if it fails. -/
def onFiles {ε α : Type} (failure : ε → CommandFailure) (step : Files → Except ε α × Files) :
    Run α :=
  ExceptT.mk fun files ↦
    let (result, files) := step files
    (result.mapError failure, files)

/-- The symbol map at a path. -/
def loadSymbols (path : String) : Run SymbolMap := do
  ofSymbols (SymbolMap.load (← getThe Files) path)

/-- The answer of a step that stops the program where it has none. -/
def orStop {α : Type} (result : Option α) : Run α :=
  ofStore (result.elim (.error .stopped) .ok)

/-- The reader of a dataset. -/
def openReader (dataset : Dataset) : Run Reader := do
  let opened ← onFiles .store dataset.openForReading
  return dataset.reader (← getThe Files) opened

/-- The answer of a read that starts without a cache. -/
def uncached {α : Type} (action : Cached α) : Run α :=
  ofStore (action.run Cache.empty).1

/-! ### Commands -/

/-- The asset that a text names: a number, else a symbol. -/
def resolveAsset (symbols : SymbolMap) (text : String) : Except CommandFailure AssetId :=
  match (Text.integer? text.toList).bind Text.int64? with
  | some n => .ok ⟨n⟩
  | none =>
    match symbols.get? (Text.upper text) with
    | some asset => .ok asset
    | none => .error (.unknownSymbol text)

/-- The asset that a text names. -/
def assetOf (symbols : SymbolMap) (text : String) : Run AssetId :=
  ExceptT.mk (pure (resolveAsset symbols text))

/-- Makes the store. -/
def init (dataset : Dataset) : Run Printout := do
  onFiles .store dataset.init
  return ⟨[s!"Store ready: {dataset.config.database}"], []⟩

/-- The paths of table files by the assets of their symbols; of several files for one asset the
last counts. -/
def pathsByAsset (assigned : List (String × AssetId)) (tables : List (String × String)) :
    List (AssetId × String) :=
  Writer.byAsset ((assigned.zip tables).map fun ((_, asset), (_, path)) ↦ (asset, path))

/-- Writes table files, in the order of their assets. -/
def writeFiles (parquet : TableFile.Decoder) (writer : Writer) (opened : OpenStore)
    (behavior : Behavior) (paths : List (AssetId × String)) : Run WriteSummary := do
  let files ← getThe Files
  let sources := paths.map fun (asset, path) ↦ (asset, TableFile.read parquet files path)
  let batch := Writer.writeTables writer.calendar behavior none sources
    (files.archive opened .empty)
  set (files.save opened batch.archive)
  ofStore batch.result

/-- Writes the tables of a directory; new symbols get their numbers first. -/
def ingest (parquet : TableFile.Decoder) (dataset : Dataset) (directory : String)
    (start stop : Day) (behavior : Option Behavior) (symbolsPath : String) : Run Printout := do
  let tables ← ofStore (TableFile.discover (← getThe Files) directory)
  if tables.isEmpty then throw (.noTables directory)
  let symbols ← loadSymbols symbolsPath
  let (assigned, symbols) ← orStop (symbols.assign? (tables.map (·.1)))
  onFiles .symbols fun files ↦ symbols.save files symbolsPath
  let (writer, opened) ← onFiles .store (dataset.openWriter start stop)
  let behavior := behavior.getD dataset.config.behavior
  let summary ← writeFiles parquet writer opened behavior (pathsByAsset assigned tables)
  return {
    lines := [(Report.summary summary).toText]
    notes := if summary.isClean then [] else [Report.uncleanNote summary] }

/-- Reports the stored spans. -/
def status (dataset : Dataset) (asJson : Bool) (symbolsPath : String) : Run Printout := do
  let reader ← openReader dataset
  let symbols ← loadSymbols symbolsPath
  let status : Report.Status := ⟨dataset.config.database, reader.contentHash, reader.spans⟩
  if asJson then
    let (first, last) ← uncached (Prod.mk <$> reader.firstTradingDay <*> reader.lastAvailableDay)
    let report := Report.statusJson symbols dataset.calendar.name first last status
    return { lines := [report.toText] }
  else return { lines := Report.statusLines symbols status }

/-- Reads fields of assets over a range. -/
def read (dataset : Dataset) (fields : List Field) (start stop : Day) (assets : List String)
    (symbolsPath : String) : Run Printout := do
  if stop < start then throw (.inverted start stop)
  let symbols ← loadSymbols symbolsPath
  let ids ← assets.mapM (assetOf symbols)
  let reader ← openReader dataset
  let tapes ← uncached (reader.load fields start stop ids)
  return { lines := [(Json.ofList (Report.tape ids) tapes).toText] }

/-- Looks up one value. -/
def value (dataset : Dataset) (asset : String) (day : Day) (field : Field)
    (symbolsPath : String) : Run Printout := do
  let symbols ← loadSymbols symbolsPath
  let id ← assetOf symbols asset
  let reader ← openReader dataset
  let value ← uncached (reader.value id day field)
  return { lines := [Report.valueLine id day field value] }

/-- Finds the latest session with a volume. -/
def lastTraded (dataset : Dataset) (asset : String) (day : Day) (symbolsPath : String) :
    Run Printout := do
  let symbols ← loadSymbols symbolsPath
  let id ← assetOf symbols asset
  let reader ← openReader dataset
  let traded ← uncached (reader.lastTraded id day)
  return { lines := [Report.lastTradedLine id day traded] }

/-- Runs a command over a dataset. -/
def command (parquet : TableFile.Decoder) (dataset : Dataset) : Command → Run Printout
  | .init => init dataset
  | .ingest directory start stop behavior symbols =>
    ingest parquet dataset directory start stop behavior symbols
  | .status asJson symbols => status dataset asJson symbols
  | .read fields start stop assets symbols => read dataset fields start stop assets symbols
  | .value asset day field symbols => value dataset asset day field symbols
  | .lastTraded asset day symbols => lastTraded dataset asset day symbols

/-- Runs a command with the settings of its flag and an environment. -/
def invocation (parquet : TableFile.Decoder) (environment : Environment)
    (invocation : Invocation) : Run Printout := do
  let files ← getThe Files
  let config ← ExceptT.mk (pure ((Settings.resolve files invocation.config environment).mapError
    CommandFailure.settings))
  let dataset ← ofStore (Dataset.ofConfig files config)
  command parquet dataset invocation.command

end Run

/-- Runs a command; the files stay changed if it fails, and no store stays open. -/
def Invocation.run (invocation : Invocation) (parquet : TableFile.Decoder)
    (environment : Environment) (files : Files) : Except CommandFailure Printout × Files :=
  let (result, files) := (Run.invocation parquet environment invocation).run files
  (result, files.release [])

end DailyBars
