import DailyBars.Calendar.Weekday
import DailyBars.Config
import DailyBars.Error
import DailyBars.Files

/-!
# Session files

A session file is a list of records with a header: fields between commas, records ended by line
feeds, carriage returns or both. A field that starts with a quote runs to the next quote that is
not doubled, line ends included; a quote elsewhere stands for itself. Empty lines are skipped.
The first field of each record is a day, with blanks around it; the other fields do not matter,
but each record has as many as the header.
-/

namespace DailyBars

namespace SessionFile

/-- Where a reader of records is. -/
inductive Place where
  /-- Before a record. -/
  | record
  /-- Before a field. -/
  | field
  /-- In a field without quotes, or after the closing quote of one. -/
  | plain
  /-- Between quotes. -/
  | quoted
  /-- After a quote that may close the field or be the first of two. -/
  | quote
deriving DecidableEq

/-- What one piece does to the record that is read. -/
inductive Effect where
  /-- The piece belongs to no field; reading goes on at a place. -/
  | skip (place : Place)
  /-- The piece belongs to the field; reading goes on at a place. -/
  | keep (place : Place)
  | endField
  | endRecord
deriving DecidableEq

/-- The effect of a piece at a place. -/
def effect (place : Place) (piece : Text.Piece) : Effect :=
  match place, piece with
  | .quoted, .char '\x22' => .skip .quote
  | .quoted, _ => .keep .quoted
  | .quote, .char '\x22' => .keep .quoted
  | .record, .char '\x22' => .skip .quoted
  | .field, .char '\x22' => .skip .quoted
  | .record, .char '\n' => .skip .record
  | .record, .char '\r' => .skip .record
  | _, .char '\n' => .endRecord
  | _, .char '\r' => .endRecord
  | _, .char ',' => .endField
  | _, _ => .keep .plain

/-- A field as it is in the file. -/
abbrev Entry : Type := List Text.Piece

/-- The records of a text. The field and the record that are being read are given in reverse. -/
def scan (place : Place) (field : Entry) (record : List Entry) :
    List Text.Piece → List (List Entry)
  | [] => if place = .record then [] else [(field.reverse :: record).reverse]
  | piece :: rest =>
    match effect place piece with
    | .skip next => scan next field record rest
    | .keep next => scan next (piece :: field) record rest
    | .endField => scan .field [] (field.reverse :: record) rest
    | .endRecord => (field.reverse :: record).reverse :: scan .record [] [] rest

/-- The records of the content of a file. -/
def records (content : List Text.Piece) : List (List Entry) :=
  scan .record [] [] (Text.dropMark content)

/-- The day of a record, the records being counted from one. -/
def readDay (width : Nat) (number : Nat) (record : List Entry) : Except SessionsFault Day := do
  if record.length ≠ width then .error .unreadable
  let some fields := record.mapM Text.wholeText? | .error .unreadable
  let entry := fields.headD []
  match Day.read (Text.trim entry) with
  | .ok day => .ok day
  | .error fault => .error (.badDay number (String.ofList entry) fault)

/-- The days of the content of a file, in its order. -/
def readDays (content : List Text.Piece) : Except SessionsFault (List Day) :=
  match records content with
  | [] => .ok []
  | header :: rows =>
    rows.zipIdx.mapM fun (record, i) ↦ readDay header.length (i + 1) record

/-- The sessions in the file at a path. -/
def read (files : Files) (path : String) : Except CalendarError DayList :=
  match files.content? path with
  | none => .error (.sessionsFile path .unreadable)
  | some content =>
    match readDays content with
    | .ok days => .ok (DayList.ofList days)
    | .error fault => .error (.sessionsFile path fault)

end SessionFile

/-- The calendar of a configuration; a sessions file is preferred to the weekday rule. -/
def CalendarConfig.resolve (config : CalendarConfig) (files : Files) :
    Except CalendarError Calendar :=
  if Text.isAllBlank config.name then .error (.unknown config.name)
  else
    match config.sessionsFile with
    | some path => (SessionFile.read files path).map (Calendar.ofSessions config.name)
    | none => .ok (WeekdayRule.ofHolidays config.name config.holidays).calendar

end DailyBars
