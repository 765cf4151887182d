import DailyBars.Error

/-!
# Outcomes of writes

A write reports one outcome per table: the rows it stored and the segments it dropped, each with
the failure that condemned it. A summary collects the outcomes of a batch and their totals.
-/

namespace DailyBars

/-- The part of a table that a segment is. -/
inductive SegmentKind where
  /-- The whole table, refused before it was split. -/
  | table
  /-- The bars of an asset without stored bars. -/
  | initial
  /-- The bars before the stored span. -/
  | before
  /-- The bars after the stored span. -/
  | after
  /-- The bars inside the stored span. -/
  | overlap
deriving DecidableEq

def SegmentKind.name : SegmentKind → String
  | table => "table"
  | initial => "initial"
  | before => "before"
  | after => "after"
  | overlap => "overlap"

/-- The segment that extends a span at an edge. -/
def SegmentKind.ofEdge : Edge → SegmentKind
  | .before => before
  | .after => after

/-- A segment that was not stored. -/
structure DroppedSegment where
  kind : SegmentKind
  rows : Nat
  reason : StoreError
deriving DecidableEq

/-- What a write did with one table. -/
structure AssetOutcome where
  asset : AssetId
  rowsWritten : Nat
  dropped : List DroppedSegment
  /-- The asset is not among those to be written, and nothing was looked at. -/
  isSkipped : Bool
deriving DecidableEq

namespace AssetOutcome

/-- The outcome of a table that was not looked at. -/
def skipped (asset : AssetId) : AssetOutcome := ⟨asset, 0, [], true⟩

/-- The outcome of a table that was looked at. -/
def written (asset : AssetId) (rows : Nat) (dropped : List DroppedSegment) : AssetOutcome :=
  ⟨asset, rows, dropped, false⟩

def isClean (outcome : AssetOutcome) : Bool :=
  outcome.dropped.isEmpty && !outcome.isSkipped

end AssetOutcome

/-- What a write did with a batch of tables. -/
structure WriteSummary where
  /-- One outcome per table, in the order of the batch. -/
  outcomes : List AssetOutcome
  rowsWritten : Nat
  droppedSegments : Nat
  skippedAssets : Nat
deriving DecidableEq

namespace WriteSummary

/-- The summary of an empty batch. -/
def empty : WriteSummary := ⟨[], 0, 0, 0⟩

/-- The summary with one more outcome. -/
def record (summary : WriteSummary) (outcome : AssetOutcome) : WriteSummary where
  outcomes := summary.outcomes ++ [outcome]
  rowsWritten := summary.rowsWritten + outcome.rowsWritten
  droppedSegments := summary.droppedSegments + outcome.dropped.length
  skippedAssets := summary.skippedAssets + if outcome.isSkipped then 1 else 0

def isClean (summary : WriteSummary) : Bool :=
  summary.outcomes.all AssetOutcome.isClean

end WriteSummary

/-- A step of a batch, as it is reported while the batch is written. -/
inductive WriteEvent where
  | started (asset : AssetId) (position : Nat)
  | completed (position : Nat) (outcome : AssetOutcome)
  | batchCompleted (summary : WriteSummary)

end DailyBars
