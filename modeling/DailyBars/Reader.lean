import DailyBars.Cache
import DailyBars.Calendar.Basic
import DailyBars.Store.Digest
import DailyBars.Tape

/-!
# Reading a store

A range read turns its two days into positions among the dataset's sessions, plans one slice of
rows per asset through the offset index, and places the rows of each slice into a tape. For few
assets each slice is read on its own; above a threshold whole columns are read through the cache
and cut by the slices. Both ways address the same rows.

Single values are found by the same positions: in a cached column if there is one, else by asset
and day.
-/

namespace DailyBars

/-- A store seen through a calendar. -/
structure Reader where
  store : Store
  calendar : Calendar
  /-- The number of assets above which a range read uses whole columns. -/
  threshold : Nat

namespace Reader

/-- The sessions from the first to the last stored day. -/
def sessions (reader : Reader) : Cached DayList :=
  Cache.sessionsOrLoad fun _ ↦
    match reader.store.dayBounds? with
    | some (first, last) => .ok (DayList.ofList (reader.calendar.sessionsIn first last))
    | none => .ok .empty

/-- The offset index over the sessions of the dataset. -/
def index (reader : Reader) : Cached OffsetIndex := do
  let sessions ← reader.sessions
  Cache.indexOrLoad fun _ ↦
    OffsetIndex.build reader.store.spans sessions reader.calendar.name

/-- The first session of the dataset. -/
def firstTradingDay (reader : Reader) : Cached (Option Day) :=
  DayList.first? <$> reader.sessions

/-- The last session of the dataset. -/
def lastAvailableDay (reader : Reader) : Cached (Option Day) :=
  DayList.last? <$> reader.sessions

/-- The currency of every asset with stored bars. -/
def currencyCode : String := "USD"

/-- The currencies of assets; none for an asset without stored bars. -/
def currencyCodes (reader : Reader) (assets : List AssetId) : Cached (List (Option String)) := do
  let index ← reader.index
  return assets.map fun asset ↦ if index.contains asset then some currencyCode else none

/-! ### Range reads -/

/-- Where the rows of a range read come from and where they go. -/
structure Plan where
  /-- The sessions of the range, one for each row of a tape. -/
  days : List Day
  /-- The first tape row that the dataset's sessions cover. -/
  rowOffset : Nat
  /-- The rows of each asset. -/
  slices : List (Option RowSlice)

/-- The position of a session of the dataset. -/
def positionOf (sessions : DayList) (day : Day) : Except StoreError Nat :=
  match sessions.indexOf? day with
  | some position => .ok position
  | none => .error (.noDataOnDate day)

/-- The plan of a range read, given the dataset's sessions and index. -/
def plan (calendar : Calendar) (sessions : DayList) (index : OffsetIndex) (start stop : Day)
    (assets : List AssetId) : Except StoreError Plan := do
  let days := calendar.sessionsIn start stop
  let covered := sessions.between start stop
  match covered.head?, covered.getLast? with
  | some first, some last =>
    let startPosition ← positionOf sessions first
    let stopPosition ← positionOf sessions last
    return {
      days := days
      rowOffset := partitionPoint (fun day ↦ day < first) days.toArray
      slices := index.slices startPosition stopPosition assets }
  | _, _ => return ⟨days, 0, assets.map fun _ ↦ none⟩

/-- The entries of a column at the positions `first` to `last`; none unless all are in it. -/
def cut (column : Array Binary64) (first last : Nat) : Array Binary64 :=
  if last < column.size then column.extract first (last + 1) else #[]

/-- The column of a tape for one asset, given the stored values of its slice. -/
def Plan.column (plan : Plan) (field : Field) (slice : RowSlice) (stored : Array Binary64) :
    Array Binary64 :=
  Tape.column field plan.days.length (plan.rowOffset + slice.outputOffset) stored

/-- The column of a tape for an asset without rows in the range. -/
def Plan.blankColumn (plan : Plan) (field : Field) : Array Binary64 :=
  Tape.column field plan.days.length 0 #[]

/-- A tape from a whole column of the store. -/
def bulkTape (plan : Plan) (field : Field) (column : Array Binary64) : Tape where
  field := field
  days := plan.days
  columns := plan.slices.map fun slice ↦
    match slice with
    | some slice => plan.column field slice (cut column slice.firstRow slice.lastRow)
    | none => plan.blankColumn field

/-- The column of a tape from the rows of its asset. -/
def assetColumn (store : Store) (index : OffsetIndex) (plan : Plan) (field : Field)
    (asset : AssetId) (slice : Option RowSlice) : Except StoreError (Array Binary64) :=
  match slice, index.get? asset with
  | some slice, some offsets =>
    match slice.rowCount? with
    | some count =>
      .ok (plan.column field slice
        (store.assetColumn asset field (slice.firstRow - offsets.firstRow) count).toArray)
    | none => .error .stopped
  | _, _ => .ok (plan.blankColumn field)

/-- A tape from the rows of each asset. -/
def assetTape (store : Store) (index : OffsetIndex) (assets : List AssetId) (plan : Plan)
    (field : Field) : Except StoreError Tape := do
  let columns ← (assets.zip plan.slices).mapM fun (asset, slice) ↦
    assetColumn store index plan field asset slice
  return ⟨field, plan.days, columns⟩

/-- The whole column of a field. -/
def column (reader : Reader) (field : Field) : Cached (Array Binary64) :=
  Cache.columnOrLoad field fun _ ↦ .ok (reader.store.column field).toArray

/-- One tape for each field, over the calendar's sessions from `start` to `stop`. -/
def load (reader : Reader) (fields : List Field) (start stop : Day) (assets : List AssetId) :
    Cached (List Tape) := do
  let index ← reader.index
  let sessions ← reader.sessions
  let plan ← ExceptT.mk (pure (plan reader.calendar sessions index start stop assets))
  if reader.threshold < assets.length then
    let columns ← fields.mapM fun field ↦ (field, ·) <$> reader.column field
    return columns.map fun (field, column) ↦ bulkTape plan field column
  else ExceptT.mk (pure (fields.mapM (assetTape reader.store index assets plan)))

/-! ### Single values -/

/-- The row of an asset on a day. -/
def rowIndex (sessions : DayList) (index : OffsetIndex) (asset : AssetId) (day : Day) :
    Except StoreError Nat := do
  let position ← positionOf sessions day
  let some offsets := index.get? asset | .error (.noDataForAsset asset)
  if position < offsets.calendarOffset then .error (.noDataBeforeDate asset day)
  let row := offsets.firstRow + (position - offsets.calendarOffset)
  if offsets.lastRow < row then .error (.noDataAfterDate asset day)
  return row

/-- The row of an asset on a day in the logical order of the store. -/
def rowOf (reader : Reader) (asset : AssetId) (day : Day) : Cached Nat := do
  let sessions ← reader.sessions
  let index ← reader.index
  ExceptT.mk (pure (rowIndex sessions index asset day))

/-- The stored value of an asset on a day: the entry of a cached column at the asset's row if there
is one, else the value found in the store. -/
def storedValue (store : Store) (cache : Cache) (asset : AssetId) (day : Day) (row : Nat)
    (field : Field) : Except StoreError Binary64 :=
  match (cache.columns field).bind fun column ↦ column[row]? with
  | some value => .ok value
  | none =>
    match store.value? asset day field with
    | some value => .ok value
    | none => .error (.noDataOnDate day)

/-- The served value of a field for an asset on a day. -/
def value (reader : Reader) (asset : AssetId) (day : Day) (field : Field) : Cached Binary64 := do
  let row ← reader.rowOf asset day
  let cache ← getThe Cache
  let stored ← ExceptT.mk (pure (storedValue reader.store cache asset day row field))
  return field.present stored

/-- The session `steps` after the first row of an asset, if its volume there is not zero. -/
def tradedAt (store : Store) (cache : Cache) (sessions : DayList) (asset : AssetId)
    (offsets : AssetOffsets) (day : Day) (steps : Nat) : Except StoreError (Option Day) := do
  let some session := sessions.get? (offsets.calendarOffset + steps)
    | .error (.noDataOnDate day)
  let stored ← storedValue store cache asset session (offsets.firstRow + steps) .volume
  return if stored.isZero then none else some session

/-- The latest session with a volume other than zero, from `steps` sessions after the first row of
an asset back to that row. -/
def lastTradedFrom (store : Store) (cache : Cache) (sessions : DayList) (asset : AssetId)
    (offsets : AssetOffsets) (day : Day) : Nat → Except StoreError (Option Day)
  | 0 => tradedAt store cache sessions asset offsets day 0
  | steps + 1 => do
    match ← tradedAt store cache sessions asset offsets day (steps + 1) with
    | some session => return some session
    | none => lastTradedFrom store cache sessions asset offsets day steps

/-- The latest session on or before a day on which an asset has a volume other than zero; none for
a day that is no session of the dataset. -/
def lastTraded (reader : Reader) (asset : AssetId) (day : Day) : Cached (Option Day) := do
  let sessions ← reader.sessions
  let index ← reader.index
  let cache ← getThe Cache
  let some offsets := index.get? asset | throw (.noDataForAsset asset)
  let some position := sessions.indexOf? day | return none
  if position < offsets.calendarOffset then return none
  let last := min position offsets.calendarEnd
  ExceptT.mk (pure (lastTradedFrom reader.store cache sessions asset offsets day
    (last - offsets.calendarOffset)))

/-- The spans of all assets. -/
def spans (reader : Reader) : List Span :=
  reader.store.spans

/-- The hash of the stored bars. -/
def contentHash (reader : Reader) : ContentHash :=
  reader.store.contentHash

end Reader

end DailyBars
