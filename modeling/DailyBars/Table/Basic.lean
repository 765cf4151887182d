import DailyBars.Binary64.Decimal
import DailyBars.Day.Instant

/-!
# Tables

A table is a list of named columns of equal height, each with one type of entries; any entry may
be missing. A column converts to doubles or to 64-bit integers as a whole (`ColumnData.convert?`):
one entry that does not convert makes the conversion fail, and a missing entry stays missing.
-/

namespace DailyBars

/-- Types of whole numbers. -/
inductive WholeType where
  | int64
  | int32
  | uint64
  | uint32
deriving DecidableEq

/-- Types of floating-point numbers. -/
inductive RealType where
  | double
  | single
deriving DecidableEq

/-- The entries of a column; singles are kept as the doubles of the same value. -/
inductive ColumnData where
  | text (entries : List (Option String))
  | truth (entries : List (Option Bool))
  | real (type : RealType) (entries : List (Option Binary64))
  | whole (type : WholeType) (entries : List (Option Int))
  /-- A column of which nothing is known but that its entries are missing. -/
  | untyped (height : Nat)
  /-- Days since 1970-01-01. -/
  | date (entries : List (Option Int))
  /-- Ticks since 1970-01-01 in UTC. -/
  | instant (unit : Day.TickUnit) (entries : List (Option Int))

namespace ColumnData

def height : ColumnData → Nat
  | text entries => entries.length
  | truth entries => entries.length
  | real _ entries => entries.length
  | whole _ entries => entries.length
  | untyped height => height
  | date entries => entries.length
  | instant _ entries => entries.length

/-- The name of the type of the entries. -/
def typeName : ColumnData → String
  | text _ => "str"
  | truth _ => "bool"
  | real .double _ => "f64"
  | real .single _ => "f32"
  | whole .int64 _ => "i64"
  | whole .int32 _ => "i32"
  | whole .uint64 _ => "u64"
  | whole .uint32 _ => "u32"
  | untyped _ => "null"
  | date _ => "date"
  | instant .. => "datetime"

end ColumnData

/-- How the entries of each type convert to values of one type. Days and ticks convert as the
numbers that they are. -/
structure Conversion (α : Type) where
  ofText? : String → Option α
  ofTruth? : Bool → Option α
  ofReal? : Binary64 → Option α
  ofWhole? : Int → Option α

namespace Conversion

/-- Conversion to doubles. -/
def double : Conversion Binary64 where
  ofText? entry := Binary64.ofText? entry.toList
  ofTruth? entry := some (.ofInt (if entry then 1 else 0))
  ofReal? := some
  ofWhole? entry := some (.ofInt entry)

/-- Conversion to 64-bit integers; doubles lose their fractions. -/
def int64 : Conversion Int64 where
  ofText? entry := (Text.integer? entry.toList).bind Text.int64?
  ofTruth? entry := some (if entry then 1 else 0)
  ofReal? entry := entry.toInt?.bind Text.int64?
  ofWhole? := Text.int64?

/-- Entries converted one by one, missing ones kept; none if one does not convert. -/
def entries? {α β : Type} (f : α → Option β) (entries : List (Option α)) :
    Option (List (Option β)) :=
  entries.mapM fun entry ↦
    match entry with
    | none => some none
    | some value => (f value).map some

end Conversion

namespace ColumnData

/-- A column converted. -/
def convert? {α : Type} (conversion : Conversion α) : ColumnData → Option (List (Option α))
  | text entries => Conversion.entries? conversion.ofText? entries
  | truth entries => Conversion.entries? conversion.ofTruth? entries
  | real _ entries => Conversion.entries? conversion.ofReal? entries
  | whole _ entries => Conversion.entries? conversion.ofWhole? entries
  | untyped height => some (List.replicate height none)
  | date entries => Conversion.entries? conversion.ofWhole? entries
  | instant _ entries => Conversion.entries? conversion.ofWhole? entries

end ColumnData

/-- A named column. -/
structure Column where
  name : String
  data : ColumnData

/-- Columns of one height with names of their own. -/
structure Table where
  columns : List Column
  height : Nat
  isRectangular : ∀ column ∈ columns, column.data.height = height
  distinctNames : (columns.map Column.name).Nodup

namespace Table

/-- The table of columns, if they have one height and distinct names. -/
def ofColumns? (columns : List Column) : Option Table :=
  let height := (columns.head?.map fun column ↦ column.data.height).getD 0
  if h : (∀ column ∈ columns, column.data.height = height) ∧ (columns.map Column.name).Nodup then
    some ⟨columns, height, h.1, h.2⟩
  else none

/-- The first column whose name is `name` in any case. -/
def find? (table : Table) (name : String) : Option Column :=
  table.columns.find? fun column ↦ Text.sameLetters column.name name

end Table

end DailyBars
