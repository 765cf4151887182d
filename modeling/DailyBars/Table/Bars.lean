import DailyBars.Bar
import DailyBars.Day.List
import DailyBars.Error
import DailyBars.Table.Basic

/-!
# The bars of a table

A table of one asset becomes a list of bars, ascending by day. It has a day column under one of four
names and a column for each field of a bar; names are compared in any case, and other columns do not
matter. The day column may hold dates, instants or texts; an instant counts for its day in UTC.
Missing, infinite and non-numeric prices become the zero that stands for an unknown price, and
missing volumes become zero. A table that lacks a column, whose columns do not convert, or that has
a day twice is refused as a whole.

The checks come in this order: missing columns, the day column, the prices in the order of the
fields, the volume, repeated days.
-/

namespace DailyBars.Table

/-! ### Columns -/

/-- The names of the day column; an earlier name is preferred to a later one. -/
def dayNames : List String := ["day", "date", "timestamp", "time"]

/-- The day column. -/
def dayColumn? (table : Table) : Option Column :=
  dayNames.findSome? table.find?

/-- The names of the columns that a table lacks, the day column as `day`. -/
def missingColumns (table : Table) : List String :=
  (if table.dayColumn?.isNone then ["day"] else []) ++
    (Field.all.map Field.name).filter fun name ↦ (table.find? name).isNone

/-! ### Rows -/

/-- The days of entries read one by one; fails at the first that is missing or no day. -/
def readDays {α : Type} (asset : AssetId) (fault : α → IndexFault) (read : α → Option Day)
    (entries : List (Option α)) : Except StoreError (List Day) :=
  entries.zipIdx.mapM fun (entry, row) ↦
    match entry with
    | none => .error (.unsupportedIndex asset (.nullDay row))
    | some entry =>
      match read entry with
      | some day => .ok day
      | none => .error (.unsupportedIndex asset (fault entry))

/-- The days of a day column. -/
def days (asset : AssetId) (data : ColumnData) : Except StoreError (List Day) :=
  match data with
  | .date entries => readDays asset .dayOutOfRange Day.ofNumber? entries
  | .instant unit entries => readDays asset .instantOutOfRange (Day.ofTicks? unit) entries
  | .text entries => readDays asset .unreadable Day.ofText? entries
  | data => .error (.unsupportedIndex asset (.wrongType data.typeName))

/-- The column of a field. -/
def fieldColumn (table : Table) (asset : AssetId) (field : Field) : Except StoreError Column :=
  match table.find? field.name with
  | some column => .ok column
  | none => .error (.corruptedData asset [field.name])

/-- The entries of the column of a field, converted. -/
def fieldEntries {α : Type} (table : Table) (asset : AssetId) (field : Field)
    (conversion : Conversion α) : Except StoreError (List (Option α)) := do
  let column ← table.fieldColumn asset field
  match column.data.convert? conversion with
  | some entries => return entries
  | none => .error (.corruptedData asset [column.name])

/-- A price as it is kept: zero unless it is a finite number. -/
def keptPrice : Option Binary64 → Binary64
  | some price => if price.isFinite then price else .zero
  | none => .zero

/-- The prices of a field. -/
def prices (table : Table) (asset : AssetId) (field : Field) :
    Except StoreError (List Binary64) :=
  (table.fieldEntries asset field .double).map fun entries ↦ entries.map keptPrice

/-- The volumes. -/
def volumes (table : Table) (asset : AssetId) : Except StoreError (List Int64) :=
  (table.fieldEntries asset .volume .int64).map fun entries ↦ entries.map fun entry ↦ entry.getD 0

/-- The days that occur more than once in an ascending list, once each. -/
def repeatedDays (days : List Day) : List Day :=
  DayList.dropRepeats ((days.zip days.tail).filterMap fun (day, next) ↦
    if day = next then some day else none)

/-- The bars of the rows of a table, in the order of the rows. -/
def rowBars (table : Table) (asset : AssetId) : Except StoreError (List Bar) := do
  let missing := table.missingColumns
  if !missing.isEmpty then .error (.corruptedData asset missing)
  let some dayColumn := table.dayColumn? | .error (.corruptedData asset ["day"])
  let days ← days asset dayColumn.data
  let openPrices ← table.prices asset .openPrice
  let highPrices ← table.prices asset .highPrice
  let lowPrices ← table.prices asset .lowPrice
  let closePrices ← table.prices asset .closePrice
  let volumes ← table.volumes asset
  return (days.zip (openPrices.zip (highPrices.zip (lowPrices.zip (closePrices.zip volumes))))).map
    fun (day, openPrice, highPrice, lowPrice, closePrice, volume) ↦
      ⟨asset, day, openPrice, highPrice, lowPrice, closePrice, volume⟩

/-- The bars of a table, ascending by day. -/
def bars (table : Table) (asset : AssetId) : Except StoreError (List Bar) := do
  let bars := (← table.rowBars asset).mergeSort fun a b ↦ a.day ≤ b.day
  let repeated := repeatedDays (bars.map Bar.day)
  if !repeated.isEmpty then .error (.duplicateDays asset repeated)
  return bars

end DailyBars.Table
