import DailyBars.AssetId
import DailyBars.Day.Text
import DailyBars.Text.Quoted

/-!
# Failures of a store

Every failure names its cause; the wording is in the `message` functions. Failures that say
something about the data given to a write are validation failures, and a write may be told to drop
the data instead of failing.

Causes that lie outside the program, such as a disk fault, carry no detail of their own. Where a
number has no place in its type or a part of a list would end before it starts, the program stops;
that is no failure of a store, but it ends an operation as one does.
-/

namespace DailyBars

/-- The end of a stored span at which a segment extends it. -/
inductive Edge where
  | before
  | after
deriving DecidableEq

def Edge.name : Edge → String
  | before => "before"
  | after => "after"

/-- Why a segment cannot be attached to the stored bars of its asset. -/
inductive EdgeViolation where
  /-- Bars fall inside the stored span. -/
  | overlap (rows : Nat) (storedFirst storedLast : Day)
  /-- The segment does not start or end one session away from the stored span. -/
  | gap (edge : Edge) (distance required : Nat)
deriving DecidableEq

def EdgeViolation.message : EdgeViolation → String
  | overlap rows storedFirst storedLast =>
    s!"{rows} rows overlap stored span {storedFirst.text}..{storedLast.text}"
  | gap edge distance required =>
    s!"{edge.name} segment has session distance {distance}, required {required}"

/-- Why the day column of a table cannot be used. -/
inductive IndexFault where
  | nullDay (row : Nat)
  | dayOutOfRange (number : Int)
  | instantOutOfRange (ticks : Int)
  | unreadable (entry : String)
  | wrongType (type : String)
  /-- A fault known only in words. -/
  | described (reason : String)
deriving DecidableEq

def IndexFault.message : IndexFault → String
  | nullDay row => s!"null day at row {row}"
  | dayOutOfRange number => s!"day {number} out of range"
  | instantOutOfRange ticks => s!"timestamp {ticks} out of range"
  | unreadable entry => s!"cannot parse '{entry}'"
  | wrongType type => s!"index column has type {type}"
  | described reason => reason

/-- Why a list of bars is not the bars of one asset in the order of their days. -/
inductive SequenceFault where
  | foreign (day : Day) (asset : AssetId)
  | descending (day previous : Day)
  /-- A fault known only in words. -/
  | described (reason : String)
deriving DecidableEq

def SequenceFault.message : SequenceFault → String
  | foreign day asset => s!"bar on {day.text} belongs to asset {asset.text}"
  | descending day previous => s!"{day.text} follows {previous.text}"
  | described reason => reason

/-- Why a table was not read from its file. -/
inductive IngestFault where
  | unsupportedExtension
  /-- The file is missing or does not hold a table. -/
  | unreadable
  /-- A fault known only in words. -/
  | described (reason : String)
deriving DecidableEq

/-- The words that follow the path of the file, if there are any. -/
def IngestFault.suffix : IngestFault → String
  | unsupportedExtension => ": unsupported file extension"
  | unreadable => ""
  | described reason => ": " ++ reason

/-- Why a sessions file does not hold a list of days. -/
inductive SessionsFault where
  /-- The file is missing or is no table of text. -/
  | unreadable
  /-- The first entry of a row is not a day; rows count from one. -/
  | badDay (row : Nat) (entry : String) (fault : Day.Fault)
deriving DecidableEq

/-- The words that follow the path of the file, if there are any. -/
def SessionsFault.suffix : SessionsFault → String
  | unreadable => ""
  | badDay row entry fault => s!": row {row}: '{entry}': {fault.message}"

/-- Why there is no calendar. -/
inductive CalendarError where
  | unknown (name : String)
  | sessionsFile (path : String) (fault : SessionsFault)
deriving DecidableEq

def CalendarError.message : CalendarError → String
  | unknown name => s!"unknown calendar '{name}'"
  | sessionsFile path fault => s!"failed to read sessions file {path}{fault.suffix}"

/-- Why a store operation fails. -/
inductive StoreError where
  /-- The database refuses the operation. -/
  | database
  | storeNotFound (path : String)
  | bootstrap (path : String) (reason : Option String)
  | corruptedData (asset : AssetId) (columns : List String)
  | unsupportedIndex (asset : AssetId) (fault : IndexFault)
  | malformedBars (asset : AssetId) (fault : SequenceFault)
  | duplicateDays (asset : AssetId) (days : List Day)
  | inconsistentSessions (asset : AssetId) (firstDay lastDay : Day) (expected actual : Nat)
      (missing extra : List Day)
  | edgeViolation (asset : AssetId) (violation : EdgeViolation)
  | noDataOnDate (day : Day)
  | noDataBeforeDate (asset : AssetId) (day : Day)
  | noDataAfterDate (asset : AssetId) (day : Day)
  | noDataForAsset (asset : AssetId)
  | calendarLookup (asset : AssetId) (day : Day) (calendar : String)
  | invalidSession (day : Day) (calendar : String)
  | calendar (error : CalendarError)
  | ingest (path : String) (fault : IngestFault)
  /-- The program stops. -/
  | stopped
deriving DecidableEq

namespace StoreError

/-- The words for a failure. -/
def message : StoreError → String
  | database => "sqlite: "
  | storeNotFound path => s!"no bar store at {path}; run `init` or open a writer first"
  | bootstrap path reason =>
    let detail := (reason.map (": " ++ ·)).getD ""
    s!"failed to create bar store at {path}{detail}"
  | corruptedData asset columns =>
    let list := Text.bracketed (columns.map Text.quoted)
    s!"corrupted data for asset {asset.text}: missing or unreadable columns {list}"
  | unsupportedIndex asset fault =>
    s!"asset {asset.text}: unusable day index: {fault.message}"
  | malformedBars asset fault =>
    s!"asset {asset.text}: malformed bar sequence: {fault.message}"
  | duplicateDays asset days =>
    s!"asset {asset.text}: duplicate days {Day.listText days}"
  | inconsistentSessions asset firstDay lastDay expected actual missing extra =>
    s!"asset {asset.text}: got {actual} rows for {firstDay.text}..{lastDay.text}, " ++
      s!"expected {expected}; missing sessions {Day.listText missing}, " ++
      s!"extra sessions {Day.listText extra}"
  | edgeViolation asset violation => s!"asset {asset.text}: {violation.message}"
  | noDataOnDate day => s!"no data on {day.text}: outside the dataset sessions"
  | noDataBeforeDate asset day =>
    s!"no data on or before {day.text} for asset {asset.text}"
  | noDataAfterDate asset day =>
    s!"no data on or after {day.text} for asset {asset.text}"
  | noDataForAsset asset => s!"no data for asset {asset.text}"
  | calendarLookup asset day name =>
    s!"asset {asset.text}: first day {day.text} is not a session of calendar '{name}'"
  | invalidSession day name =>
    s!"{day.text} is not a session of calendar '{name}'"
  | calendar error => s!"calendar: {error.message}"
  | ingest path fault => s!"failed to ingest {path}{fault.suffix}"
  | stopped => "stopped"

/-- Whether the failure says something about the data of a write. -/
def isValidation : StoreError → Bool
  | corruptedData .. | unsupportedIndex .. | malformedBars .. | duplicateDays .. => true
  | inconsistentSessions .. | edgeViolation .. => true
  | _ => false

end StoreError

end DailyBars
