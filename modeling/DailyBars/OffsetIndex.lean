import DailyBars.Day.List
import DailyBars.Error
import DailyBars.Span

/-!
# The offset index

For each asset the index holds the rows of the store that are its own and the position of its
first day among the sessions of the dataset. Where the rows of an asset lie on successive
sessions, the row on session position `p` is `firstRow + (p - calendarOffset)`, so that reads need
no search. The index is built from the spans alone, in one pass that carries the number of rows
before each asset.

Rows are counted in words of 64 bits. A count that is no word is not there.
-/

namespace DailyBars

/-! ### Words -/

namespace Word

/-- A sum of words, if it is a word. -/
def add? (a b : Nat) : Option Nat :=
  if a + b < UInt64.size then some (a + b) else none

/-- A difference of words, if it does not fall below zero. -/
def sub? (a b : Nat) : Option Nat :=
  if b ≤ a then some (a - b) else none

/-- The number of rows from a first to a last one. -/
def countRows? (first last : Nat) : Option Nat := do
  add? (← sub? last first) 1

end Word

/-! ### Offsets and slices -/

/-- Where the rows of one asset lie in the store and among the sessions. -/
structure AssetOffsets where
  firstRow : Nat
  lastRow : Nat
  /-- The session position of the first row. -/
  calendarOffset : Nat
  firstDay : Day
  lastDay : Day
deriving DecidableEq

namespace AssetOffsets

def rowCount? (offsets : AssetOffsets) : Option Nat :=
  Word.countRows? offsets.firstRow offsets.lastRow

/-- The session position of the last row. -/
def calendarEnd (offsets : AssetOffsets) : Nat :=
  offsets.calendarOffset + (offsets.lastRow - offsets.firstRow)

end AssetOffsets

/-- The rows that one asset contributes to a range of sessions. -/
structure RowSlice where
  firstRow : Nat
  lastRow : Nat
  /-- The position in the range of the first row's session. -/
  outputOffset : Nat
deriving DecidableEq

def RowSlice.rowCount? (slice : RowSlice) : Option Nat :=
  Word.countRows? slice.firstRow slice.lastRow

/-- The offsets of every asset that has rows. -/
structure OffsetIndex where
  /-- One entry per asset. -/
  entries : List (AssetId × AssetOffsets)
  totalRows : Nat

namespace OffsetIndex

/-- The index without assets. -/
def empty : OffsetIndex := ⟨[], 0⟩

instance : Inhabited OffsetIndex := ⟨empty⟩

/-- The offsets of an asset. -/
def get? (index : OffsetIndex) (asset : AssetId) : Option AssetOffsets :=
  (index.entries.find? fun entry ↦ entry.1 = asset).map (·.2)

def contains (index : OffsetIndex) (asset : AssetId) : Bool :=
  (index.get? asset).isSome

def size (index : OffsetIndex) : Nat :=
  index.entries.length

def isEmpty (index : OffsetIndex) : Bool :=
  index.entries.isEmpty

/-- Entries with the one of an asset put in, in place of any earlier one. -/
def put (entries : List (AssetId × AssetOffsets)) (asset : AssetId) (offsets : AssetOffsets) :
    List (AssetId × AssetOffsets) :=
  (asset, offsets) :: entries.filter fun entry ↦ entry.1 ≠ asset

/-- The index with the rows of one more span, placed after those of all spans before it. A span
without rows adds nothing. -/
def add (sessions : DayList) (calendar : String) (index : OffsetIndex) (span : Span) :
    Except StoreError OffsetIndex :=
  if span.rows = 0 then .ok index
  else
    match sessions.indexOf? span.firstDay with
    | none => .error (.calendarLookup span.asset span.firstDay calendar)
    | some position =>
      let offsets : AssetOffsets :=
        { firstRow := index.totalRows
          lastRow := index.totalRows + span.rows - 1
          calendarOffset := position
          firstDay := span.firstDay
          lastDay := span.lastDay }
      .ok ⟨put index.entries span.asset offsets, index.totalRows + span.rows⟩

/-- The index of spans, which come in the order of the rows of the store. Fails at the first span
whose first day is not among the sessions. -/
def build (spans : List Span) (sessions : DayList) (calendar : String) :
    Except StoreError OffsetIndex :=
  spans.foldlM (add sessions calendar) empty

/-- Entries, one for each asset; of several for one asset the last is kept. -/
def keepLast (entries : List (AssetId × AssetOffsets)) : List (AssetId × AssetOffsets) :=
  entries.foldl (fun kept entry ↦ put kept entry.1 entry.2) []

/-- The sum of the row counts of entries. -/
def sumRows? (entries : List (AssetId × AssetOffsets)) : Option Nat :=
  entries.foldlM (fun total entry ↦ do Word.add? total (← entry.2.rowCount?)) 0

/-- The index of given entries, if their rows can be counted. -/
def ofEntries? (entries : List (AssetId × AssetOffsets)) : Option OffsetIndex := do
  return ⟨keepLast entries, ← sumRows? (keepLast entries)⟩

/-- The rows of one asset on the sessions at the positions `start` to `stop`. -/
def slice? (index : OffsetIndex) (start stop : Nat) (asset : AssetId) : Option RowSlice := do
  let offsets ← index.get? asset
  if stop < start ∨ offsets.calendarEnd < start ∨ stop < offsets.calendarOffset then none
  let leading := start - offsets.calendarOffset
  let trailing := min (stop - offsets.calendarOffset) (offsets.lastRow - offsets.firstRow)
  return { firstRow := offsets.firstRow + leading
           lastRow := offsets.firstRow + trailing
           outputOffset := offsets.calendarOffset - start }

/-- The rows that each of several assets contributes to the sessions at the positions `start` to
`stop`. -/
def slices (index : OffsetIndex) (start stop : Nat) (assets : List AssetId) :
    List (Option RowSlice) :=
  assets.map (index.slice? start stop)

end OffsetIndex

end DailyBars
