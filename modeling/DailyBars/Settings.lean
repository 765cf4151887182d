import DailyBars.Config.Document

/-!
# Settings

The configuration that a command runs with: that of the file named by its flag, else of the file
named by the environment, else a built-in one. Two variables of the environment replace its
database and the name of its calendar; blank variables count as unset.
-/

namespace DailyBars

/-- The values of the variables of an environment. -/
abbrev Environment : Type := String → Option String

namespace Settings

/-- The variable with the path of a configuration. -/
def configVariable : String := "BARVAULT_CONFIG"

/-- The variable with the path of the database. -/
def databaseVariable : String := "BARVAULT_DATABASE"

/-- The variable with the name of the calendar. -/
def calendarVariable : String := "BARVAULT_CALENDAR"

/-- The path of the database if nothing names one. -/
def defaultDatabase : String := "data/daily.sqlite"

/-- Why there is no configuration to run with. -/
inductive Failure where
  /-- The file at a path is no configuration. -/
  | loading (path : String) (cause : ConfigError)
  /-- The configuration has a fault once it is complete. -/
  | invalid (cause : ConfigError)
deriving DecidableEq

def Failure.message : Failure → String
  | loading path _ => s!"loading config {path}"
  | invalid cause => cause.message

/-- The value of a variable, unless it is blank. -/
def setting? (environment : Environment) (name : String) : Option String :=
  (environment name).filter fun value ↦ !Text.isAllBlank value

/-- The configuration before the variables replace parts of it. -/
def base (files : Files) (flag : Option String) (environment : Environment) :
    Except Failure Config :=
  match flag <|> setting? environment configVariable with
  | some path => (Config.load files path).mapError (Failure.loading path)
  | none => .ok { database := defaultDatabase }

/-- The configuration with the parts that the environment replaces. -/
def override (environment : Environment) (config : Config) : Config :=
  let name := (setting? environment calendarVariable).getD config.calendar.name
  { config with
    database := (setting? environment databaseVariable).getD config.database
    calendar.name := name }

/-- The configuration to run with. -/
def resolve (files : Files) (flag : Option String) (environment : Environment) :
    Except Failure Config := do
  let config := override environment (← base files flag environment)
  match config.fault? with
  | some fault => .error (.invalid (.invalid fault))
  | none => .ok config

end Settings

end DailyBars
