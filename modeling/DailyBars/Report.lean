import DailyBars.Json
import DailyBars.Outcome
import DailyBars.Span
import DailyBars.Store.Digest
import DailyBars.SymbolMap.Basic
import DailyBars.Tape

/-!
# Reports

What the program prints: the summary of a batch, the spans of a store as a table or as JSON, the
tapes of a read, and the answers of single look-ups. In JSON the members of a summary stand in the
order of its parts, those of every other object in the order of their names. A tape shows a missing
price as `null`.
-/

namespace DailyBars

namespace Report

/-- A day as its text. -/
def day (day : Day) : Json := .text day.text

/-- An asset as its number. -/
def asset (asset : AssetId) : Json := .integer asset.value.toInt

/-! ### Writes -/

/-- A segment that was not stored, with the words for the reason. -/
def dropped (segment : DroppedSegment) : Json :=
  .object [
    ("kind", .text segment.kind.name),
    ("rows", .integer segment.rows),
    ("reason", .text segment.reason.message)]

/-- The outcome of one table. -/
def outcome (outcome : AssetOutcome) : Json :=
  .object [
    ("asset", asset outcome.asset),
    ("rows_written", .integer outcome.rowsWritten),
    ("dropped", .ofList dropped outcome.dropped),
    ("skipped", .truth outcome.isSkipped)]

/-- The summary of a batch. -/
def summary (summary : WriteSummary) : Json :=
  .object [
    ("assets", .ofList outcome summary.outcomes),
    ("rows_written", .integer summary.rowsWritten),
    ("dropped_segments", .integer summary.droppedSegments),
    ("skipped_assets", .integer summary.skippedAssets)]

/-- What is noted beside the summary of a batch that is not clean. -/
def uncleanNote (summary : WriteSummary) : String :=
  s!"{summary.droppedSegments} segment(s) dropped, {summary.skippedAssets} asset(s) skipped"

/-! ### Status -/

/-- A store at a path, in short. -/
structure Status where
  database : String
  hash : ContentHash
  spans : List Span

/-- The span of an asset with its symbol. -/
def spanJson (symbols : SymbolMap) (span : Span) : Json :=
  .object [
    ("asset", asset span.asset),
    ("first_day", day span.firstDay),
    ("last_day", day span.lastDay),
    ("rows", .integer span.rows),
    ("symbol", .ofOption .text (symbols.symbolOf? span.asset))]

/-- A status as JSON, with the calendar and the first and the last session of the store. -/
def statusJson (symbols : SymbolMap) (calendar : String) (first last : Option Day)
    (status : Status) : Json :=
  .object [
    ("assets", .ofList (spanJson symbols) status.spans),
    ("calendar", .text calendar),
    ("database", .text status.database),
    ("dataset_hash", .text status.hash.hex),
    ("first_trading_day", .ofOption day first),
    ("last_available_dt", .ofOption day last)]

/-- A text filled up with blanks on the right. -/
def leftAligned (width : Nat) (text : String) : String :=
  text ++ String.ofList (List.replicate (width - text.length) ' ')

/-- A text filled up with blanks on the left. -/
def rightAligned (width : Nat) (text : String) : String :=
  String.ofList (List.replicate (width - text.length) ' ') ++ text

/-- The heads of the columns of a status table. -/
def statusHeader : String :=
  " ".intercalate [
    leftAligned 8 "Id", leftAligned 10 "Symbol", rightAligned 8 "Rows",
    leftAligned 12 "First", leftAligned 12 "Last"]

/-- The row of an asset in a status table; only the symbol and the count are aligned. -/
def statusRow (symbols : SymbolMap) (span : Span) : String :=
  " ".intercalate [
    span.asset.text, leftAligned 10 ((symbols.symbolOf? span.asset).getD "-"),
    rightAligned 8 (toString span.rows), span.firstDay.text, span.lastDay.text]

/-- A status as lines, with a table unless there are no assets. -/
def statusLines (symbols : SymbolMap) (status : Status) : List String :=
  let rows := status.spans.foldl (fun rows span ↦ rows + span.rows) 0
  let totals := [
    s!"Store: {status.database}",
    s!"Assets: {status.spans.length}",
    s!"Rows: {rows}",
    s!"Hash: {status.hash.short?.getD status.hash.hex}"]
  if status.spans.isEmpty then totals
  else
    totals ++ ["", statusHeader, String.ofList (List.replicate 54 '-')] ++
      status.spans.map (statusRow symbols)

/-! ### Reads -/

/-- A row of a tape, given its position and its session. -/
def tapeRow (tape : Tape) (row : Nat × Day) : Json :=
  .object [("day", day row.2), ("values", .ofList .real (tape.row row.1))]

/-- A tape of assets. -/
def tape (assets : List AssetId) (tape : Tape) : Json :=
  .object [
    ("assets", .ofList asset assets),
    ("field", .text tape.field.name),
    ("rows", .ofList (tapeRow tape) ((List.range tape.days.length).zip tape.days))]

/-- The answer of a look-up of one value. -/
def valueLine (asset : AssetId) (day : Day) (field : Field) (value : Binary64) : String :=
  let text := if value.isNaN then "missing" else value.plainText
  s!"{asset.text} {day.text} {field.name}: {text}"

/-- The answer to the question for the latest session with a volume. -/
def lastTradedLine (asset : AssetId) (day : Day) (traded : Option Day) : String :=
  match traded with
  | some session => s!"{asset.text} last traded on {session.text}"
  | none => s!"{asset.text} has no trade on or before {day.text}"

end Report

end DailyBars
