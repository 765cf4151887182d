import DailyBars.Config
import DailyBars.Files
import DailyBars.Toml.Document
import DailyBars.Toml.Printer

/-!
# Configurations as documents

A configuration is a TOML document with the database, the threshold and the disposition, and a
table `calendar`. Only the database and the name of the calendar have to be there, and keys that
mean nothing here are passed over. A disposition is written by its exact name, a day by its text.
What is read is checked for faults; what is written is not.
-/

namespace DailyBars

open Toml

/-! ### Reading -/

/-- The disposition that a value names: its name, or a table with the name as its only key and
nothing under it. -/
def Behavior.ofValue? (value : Value) : Option Behavior :=
  match value with
  | .text name => named? name
  | .table [(name, .array [])] => named? name
  | .table [(name, .table [])] => named? name
  | _ => none
where
  named? (name : String) : Option Behavior :=
    all.find? fun behavior ↦ behavior.name == name

namespace CalendarConfig

/-- The days of an array of texts. -/
def daysOfValue? (value : Value) : Option (List Day) := do
  (← value.items?).mapM fun item ↦ item.text?.bind Day.readSpaced?

/-- The entries of an array that lists a calendar's parts in order; further items count for
nothing. -/
def entriesOfItems (items : List Value) : List (String × Value) :=
  ["name", "holidays", "sessions_file"].zip items

/-- The calendar of a table, or of an array of its parts. -/
def ofValue? (value : Value) : Option CalendarConfig := do
  let entries ←
    match value with
    | .table entries => some entries
    | .array items => some (entriesOfItems items)
    | _ => none
  let file? (value : Value) : Option (Option String) := value.text?.map some
  return {
    name := ← field? entries "name" Value.text? none
    holidays := ← field? entries "holidays" daysOfValue? (some [])
    sessionsFile := ← field? entries "sessions_file" file? (some none) }

end CalendarConfig

namespace Config

/-- A threshold, which is not negative. -/
def thresholdOfValue? (value : Value) : Option Nat := do
  let n ← value.integer?
  if n < 0 then none else some n.toInt.toNat

/-- The configuration in the entries of a document. -/
def ofEntries? (entries : List (String × Value)) : Option Config := do
  let database ← field? entries "database" Value.text? none
  let unset : Config := { database }
  return {
    database := database
    readAllThreshold :=
      ← field? entries "read_all_threshold" thresholdOfValue? (some unset.readAllThreshold)
    behavior := ← field? entries "invalid_data_behavior" Behavior.ofValue? (some unset.behavior)
    calendar := ← field? entries "calendar" CalendarConfig.ofValue? none }

/-- The configuration that a text writes, if it has no fault. -/
def ofText (text : String) : Except ConfigError Config :=
  match (Toml.ofText? text).bind ofEntries? with
  | none => .error .malformed
  | some config =>
    match config.fault? with
    | some fault => .error (.invalid fault)
    | none => .ok config

/-- The configuration in the file at a path. -/
def load (files : Files) (path : String) : Except ConfigError Config :=
  match files.text? path with
  | none => .error (.unreadable path)
  | some text => ofText text

/-! ### Writing -/

/-- A line that assigns a text to a key. -/
def textLine (key text : String) : List Char :=
  assignText key (stringText text.toList)

/-- The lines of a calendar's table, after its header. -/
def calendarLines (calendar : CalendarConfig) : List Char :=
  let days := calendar.holidays.map fun day ↦ stringText day.text.toList
  textLine "name" calendar.name ++ assignText "holidays" (arrayText days) ++
    calendar.sessionsFile.elim [] (textLine "sessions_file")

/-- The text of a configuration; a threshold beyond 64 bits has none. -/
def toText (config : Config) : Except ConfigError String :=
  match Text.int64? config.readAllThreshold with
  | none => .error .unwritable
  | some threshold =>
    .ok <| String.ofList <|
      textLine "database" config.database ++
        assignText "read_all_threshold" (integerText threshold) ++
        textLine "invalid_data_behavior" config.behavior.name ++
        ['\n'] ++ headerText "calendar" ++ calendarLines config.calendar

end Config

end DailyBars
