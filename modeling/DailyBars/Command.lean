import DailyBars.Arguments
import DailyBars.Bar
import DailyBars.Behavior

/-!
# Commands

What a run of the program is asked to do, as its arguments say it: a command with its options and
positional values, and the path of a configuration, which may stand before the command or among its
arguments and counts most in the second place. Days, fields and dispositions are read as elsewhere;
a path is not empty.
-/

namespace DailyBars

/-- A command of the program. -/
inductive Command where
  /-- Make the store. -/
  | init
  /-- Write the tables in a directory. -/
  | ingest (directory : String) (start stop : Day) (behavior : Option Behavior) (symbols : String)
  /-- Report the stored spans. -/
  | status (asJson : Bool) (symbols : String)
  /-- Read fields of assets over a range. -/
  | read (fields : List Field) (start stop : Day) (assets : List String) (symbols : String)
  /-- Look up one value. -/
  | value (asset : String) (day : Day) (field : Field) (symbols : String)
  /-- Find the latest session with a volume. -/
  | lastTraded (asset : String) (day : Day) (symbols : String)

/-- A command and the path of the configuration to run it with. -/
structure Invocation where
  config : Option String
  command : Command

namespace Command

/-- The path of the symbol map if none is given. -/
def defaultSymbols : String := "data/assets.toml"

/-- The option for a configuration, which is known everywhere. -/
def configRule : OptionRule := ⟨"config", .single⟩

/-- The options of a command by its name; none if there is no such command. -/
def rules? (name : String) : Option (List OptionRule) :=
  match name with
  | "init" => some []
  | "ingest" =>
    some [⟨"start", .single⟩, ⟨"end", .single⟩, ⟨"behavior", .single⟩, ⟨"assets", .single⟩]
  | "status" => some [⟨"json", .switch⟩, ⟨"assets", .single⟩]
  | "read" =>
    some [⟨"fields", .collecting⟩, ⟨"start", .single⟩, ⟨"end", .single⟩, ⟨"asset-map", .single⟩]
  | "value" => some [⟨"field", .single⟩, ⟨"asset-map", .single⟩]
  | "last-traded" => some [⟨"asset-map", .single⟩]
  | _ => none

/-- A text as a path. -/
def path? (text : String) : Option String :=
  if text.isEmpty then none else some text

/-- The value of an option that may be left out. -/
def optional? {α : Type} (arguments : Arguments) (name : String) (read : String → Option α)
    (missing : α) : Option α :=
  (arguments.value? name).elim (some missing) read

/-- The value of an option that has to be given. -/
def required? {α : Type} (arguments : Arguments) (name : String) (read : String → Option α) :
    Option α :=
  (arguments.value? name).bind read

/-- The path of the symbol map. -/
def symbols? (arguments : Arguments) (name : String) : Option String :=
  optional? arguments name path? defaultSymbols

/-- Fields with commas between them. -/
def fields? (text : String) : Option (List Field) :=
  (text.splitOn ",").mapM Field.ofName?

/-- The fields of a read: the price at the close if none are given. -/
def fieldsOf? (arguments : Arguments) : Option (List Field) :=
  match arguments.values "fields" with
  | [] => some [.closePrice]
  | texts => (texts.mapM fields?).map List.flatten

/-- The command of a name and arguments. -/
def ofArguments? (name : String) (arguments : Arguments) : Option Command :=
  match name, arguments.positionals with
  | "init", [] => some .init
  | "ingest", [directory] => do
    return .ingest (← path? directory) (← required? arguments "start" Day.readSpaced?)
      (← required? arguments "end" Day.readSpaced?)
      (← optional? arguments "behavior" (fun text ↦ (Behavior.ofName? text).map some) none)
      (← symbols? arguments "assets")
  | "status", [] => do
    return .status (arguments.value? "json").isSome (← symbols? arguments "assets")
  | "read", asset :: assets => do
    return .read (← fieldsOf? arguments) (← required? arguments "start" Day.readSpaced?)
      (← required? arguments "end" Day.readSpaced?) (asset :: assets)
      (← symbols? arguments "asset-map")
  | "value", [asset, day] => do
    return .value asset (← Day.readSpaced? day)
      (← optional? arguments "field" Field.ofName? .closePrice) (← symbols? arguments "asset-map")
  | "last-traded", [asset, day] => do
    return .lastTraded asset (← Day.readSpaced? day) (← symbols? arguments "asset-map")
  | _, _ => none

/-- The path of the symbol map that a command uses. -/
def symbolsPath? : Command → Option String
  | init => none
  | ingest _ _ _ _ symbols => some symbols
  | status _ symbols => some symbols
  | read _ _ _ _ symbols => some symbols
  | value _ _ _ symbols => some symbols
  | lastTraded _ _ symbols => some symbols

end Command

namespace Invocation

/-- The path of a configuration among arguments; the outer `none` stands for an empty path. -/
def config? (arguments : Arguments) : Option (Option String) :=
  Command.optional? arguments "config" (fun text ↦ (Command.path? text).map some) none

/-- What the arguments of the program ask for. -/
def ofWords? (words : List String) : Option Invocation := do
  let (leading, name, rest) ← Arguments.readCommand? [Command.configRule] words
  let arguments ← Arguments.read? (Command.configRule :: (← Command.rules? name)) rest
  let outer ← config? leading
  let inner ← config? arguments
  return ⟨inner <|> outer, ← Command.ofArguments? name arguments⟩

end Invocation

end DailyBars
