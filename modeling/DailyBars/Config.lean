import DailyBars.Behavior
import DailyBars.Day.Text

/-!
# Configuration

What a dataset is bound to: the path of its store, the number of assets above which reads use
whole columns, the disposition for invalid data, and the calendar.
-/

namespace DailyBars

/-- The calendar of a dataset: a sessions file, or the weekday rule with holidays. -/
structure CalendarConfig where
  name : String := "XNYS"
  holidays : List Day := []
  sessionsFile : Option String := none
deriving DecidableEq

/-- The configuration of a dataset. -/
structure Config where
  database : String
  /-- The number of assets above which range reads use whole columns. -/
  readAllThreshold : Nat := 3000
  behavior : Behavior := default
  calendar : CalendarConfig := {}
deriving DecidableEq

/-- What makes a configuration unusable. -/
inductive ConfigFault where
  | emptyDatabase
  | emptyCalendarName
deriving DecidableEq

def ConfigFault.message : ConfigFault → String
  | emptyDatabase => "database path is empty"
  | emptyCalendarName => "calendar name is empty"

/-- Why a configuration or an asset map is not read or written. -/
inductive ConfigError where
  /-- The file cannot be read or written, or is no text. -/
  | unreadable (path : String)
  /-- The text is not a document, or the document lacks something. -/
  | malformed
  /-- A value has no written form. -/
  | unwritable
  | invalid (fault : ConfigFault)
deriving DecidableEq

def ConfigError.message : ConfigError → String
  | unreadable path => s!"failed to read config {path}: "
  | malformed => "failed to parse config: "
  | unwritable => "failed to serialize config: "
  | invalid fault => s!"invalid config: {fault.message}"

/-- The first fault of a configuration. -/
def Config.fault? (config : Config) : Option ConfigFault :=
  if config.database.isEmpty then some .emptyDatabase
  else if Text.isAllBlank config.calendar.name then some .emptyCalendarName
  else none

end DailyBars
