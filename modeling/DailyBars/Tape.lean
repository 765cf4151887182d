import DailyBars.Bar

/-!
# Tapes

A tape is a dense table of the served values of one field: one row per session and one column per
asset. A column is filled from the stored values of its asset, which lie on successive rows from a
first one on; values that fall outside the rows are left out, and rows without a value hold the
missing value of the field.
-/

namespace DailyBars

/-- The served values of a field by session and asset. -/
structure Tape where
  field : Field
  /-- The sessions that the rows stand for. -/
  days : List Day
  /-- The values of each asset, one for each session. -/
  columns : List (Array Binary64)

namespace Tape

/-- A column of `height` rows with stored values from row `base` on. -/
def column (field : Field) (height base : Nat) (stored : Array Binary64) : Array Binary64 :=
  ((List.range height).map fun row ↦
    if base ≤ row then (stored[row - base]?).elim field.missing field.present
    else field.missing).toArray

/-- The numbers of rows and columns. -/
def shape (tape : Tape) : Nat × Nat :=
  (tape.days.length, tape.columns.length)

/-- The value in a row and a column. -/
def get? (tape : Tape) (row col : Nat) : Option Binary64 :=
  (tape.columns[col]?).bind fun values ↦ values[row]?

/-- The values of a row. -/
def row (tape : Tape) (row : Nat) : List Binary64 :=
  tape.columns.filterMap fun values ↦ values[row]?

/-- The values of a column; none for a column that is not there. -/
def columnAt (tape : Tape) (col : Nat) : List Binary64 :=
  (tape.columns[col]?).elim [] Array.toList

/-- The number of values. -/
def valueCount (tape : Tape) : Nat :=
  tape.days.length * tape.columns.length

end Tape

end DailyBars
