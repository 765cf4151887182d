import DailyBars.Behavior
import DailyBars.Cache
import DailyBars.Consistency
import DailyBars.Outcome
import DailyBars.Store.Basic
import DailyBars.Table.Bars

/-!
# Writing to a store

The bars of an asset without stored bars are stored if they are consistent with the calendar.
Otherwise they are split around the stored span: bars inside it are never stored, and the bars
before and after it are each stored if they are consistent and touch the span. What is not stored
is dropped with the reason, or makes the write fail, as the disposition says. The accepted bars of
one asset are stored together or not at all, and storing some drops the cache.

`planBars` decides, without the store, and `writeBars` acts. The bounds of a stored span come from
the store, which orders days by their texts. Where they are not in the order of the days, the parts
before and after the span may overlap, and then the program stops whatever the disposition.
-/

namespace DailyBars

/-- A store and the cache of what reads derived from it. -/
structure Archive where
  store : Store
  cache : Cache
  /-- Nothing may be added to the store. -/
  isReadOnly : Bool

namespace Archive

/-- A new archive. -/
def empty : Archive := ⟨.empty, .empty, false⟩

instance : Inhabited Archive := ⟨empty⟩

/-- The archive with bars added to the store and nothing in the cache. -/
def append? (archive : Archive) (bars : List Bar) : Option Archive :=
  if archive.isReadOnly then none
  else (archive.store.append? bars).map fun store ↦
    { archive with store := store, cache := archive.cache.invalidate }

end Archive

namespace Writer

/-- The pairs of neighbours in a list. -/
def neighbours {α : Type} (list : List α) : List (α × α) :=
  list.zip list.tail

/-- The fault of a list of bars, unless all belong to the asset and the days are ascending. -/
def sequenceFault? (asset : AssetId) (bars : List Bar) : Option StoreError :=
  match bars.find? fun bar ↦ bar.asset ≠ asset with
  | some foreign => some (.malformedBars asset (.foreign foreign.day foreign.asset))
  | none =>
    let days := bars.map Bar.day
    match (neighbours days).find? fun (day, next) ↦ next < day with
    | some (day, next) => some (.malformedBars asset (.descending next day))
    | none =>
      let repeated := Table.repeatedDays days
      if repeated.isEmpty then none else some (.duplicateDays asset repeated)

/-- A segment that is not stored: dropped, or a failure. -/
def drop (behavior : Behavior) (kind : SegmentKind) (rows : Nat) (reason : StoreError) :
    Except StoreError (List DroppedSegment) :=
  match behavior with
  | .raise => .error reason
  | .warn | .ignore => .ok [⟨kind, rows, reason⟩]

/-- The bars to store, and the segments that are not stored. -/
structure Plan where
  accepted : List Bar
  dropped : List DroppedSegment

/-- The plan for an asset without stored bars. -/
def planInitial (calendar : Calendar) (behavior : Behavior) (asset : AssetId) (bars : List Bar) :
    Except StoreError Plan :=
  match (calendar.check (bars.map Bar.day)).toError? asset bars with
  | none => .ok ⟨bars, []⟩
  | some error => (drop behavior .initial bars.length error).map (Plan.mk [])

/-- Whether a segment may extend a stored span: its boundary touches the span, and it is consistent
with the calendar. -/
def checkSegment (calendar : Calendar) (asset : AssetId) (edge : Edge) (segment : List Bar)
    (boundary storedBoundary : Day) : Except StoreError Unit :=
  match calendar.checkAdjacent edge boundary storedBoundary with
  | .error violation => .error (.edgeViolation asset violation)
  | .ok () =>
    match (calendar.check (segment.map Bar.day)).toError? asset segment with
    | none => .ok ()
    | some error => .error error

/-- The plan for the segment at one edge of a stored span; `boundary` is its bar next to the span,
none for an empty segment. -/
def planEdge (calendar : Calendar) (behavior : Behavior) (asset : AssetId) (edge : Edge)
    (segment : List Bar) (boundary : Option Bar) (storedBoundary : Day) :
    Except StoreError Plan :=
  match boundary with
  | none => .ok ⟨[], []⟩
  | some bar =>
    match checkSegment calendar asset edge segment bar.day storedBoundary with
    | .ok () => .ok ⟨segment, []⟩
    | .error error => (drop behavior (.ofEdge edge) segment.length error).map (Plan.mk [])

/-- The plan for the bars inside the stored span. -/
def planOverlap (behavior : Behavior) (asset : AssetId) (overlap : List Bar)
    (storedFirst storedLast : Day) : Except StoreError Plan :=
  if overlap.isEmpty then .ok ⟨[], []⟩
  else
    let violation := EdgeViolation.overlap overlap.length storedFirst storedLast
    (drop behavior .overlap overlap.length (.edgeViolation asset violation)).map (Plan.mk [])

/-- The bars before a day, in an ascending list. -/
def barsBefore (day : Day) (bars : List Bar) : List Bar :=
  bars.takeWhile fun bar ↦ bar.day < day

/-- The bars after a day, in an ascending list. -/
def barsAfter (day : Day) (bars : List Bar) : List Bar :=
  bars.dropWhile fun bar ↦ bar.day ≤ day

/-- The bars from one day to another, in an ascending list. -/
def barsWithin (first last : Day) (bars : List Bar) : List Bar :=
  (bars.dropWhile fun bar ↦ bar.day < first).takeWhile fun bar ↦ bar.day ≤ last

/-- The plan for the bars inside, before and after a stored span. -/
def planAround (calendar : Calendar) (behavior : Behavior) (asset : AssetId)
    (storedFirst storedLast : Day) (bars : List Bar) : Except StoreError Plan := do
  let before := barsBefore storedFirst bars
  let after := barsAfter storedLast bars
  let overlap ← planOverlap behavior asset (barsWithin storedFirst storedLast bars) storedFirst
    storedLast
  let before ← planEdge calendar behavior asset .before before before.getLast? storedFirst
  let after ← planEdge calendar behavior asset .after after after.head? storedLast
  return ⟨before.accepted ++ after.accepted, overlap.dropped ++ before.dropped ++ after.dropped⟩

/-- The plan for an asset with a stored span. Where the bars before the span and those after it
overlap, the part between them would end before it starts. -/
def planExtension (calendar : Calendar) (behavior : Behavior) (asset : AssetId)
    (storedFirst storedLast : Day) (bars : List Bar) : Except StoreError Plan :=
  if bars.length < (barsBefore storedFirst bars).length + (barsAfter storedLast bars).length then
    .error .stopped
  else planAround calendar behavior asset storedFirst storedLast bars

/-- The plan for bars of an asset, given the bounds of its stored span. -/
def planBars (calendar : Calendar) (behavior : Behavior) (bounds : Option (Day × Day))
    (asset : AssetId) (bars : List Bar) : Except StoreError Plan :=
  if bars.isEmpty then .ok ⟨[], []⟩
  else
    match sequenceFault? asset bars with
    | some error => (drop behavior .table bars.length error).map (Plan.mk [])
    | none =>
      match bounds with
      | none => planInitial calendar behavior asset bars
      | some (first, last) => planExtension calendar behavior asset first last bars

/-- Writes the bars of one asset. A write that fails leaves the archive as it is. -/
def writeBars (calendar : Calendar) (behavior : Behavior) (asset : AssetId) (bars : List Bar)
    (archive : Archive) : Except StoreError AssetOutcome × Archive :=
  match planBars calendar behavior (archive.store.assetBounds? asset) asset bars with
  | .error error => (.error error, archive)
  | .ok plan =>
    if plan.accepted.isEmpty then (.ok (.written asset 0 plan.dropped), archive)
    else
      match archive.append? plan.accepted with
      | none => (.error .database, archive)
      | some archive => (.ok (.written asset plan.accepted.length plan.dropped), archive)

/-- A table of an asset, or the failure to read it. -/
abbrev Source : Type := AssetId × Except StoreError Table

/-- Writes one table. A table that was not read or that has no bars is dropped as a whole. -/
def writeTable (calendar : Calendar) (behavior : Behavior) (source : Source)
    (archive : Archive) : Except StoreError AssetOutcome × Archive :=
  let (asset, table) := source
  let reject (rows : Nat) (error : StoreError) : Except StoreError AssetOutcome × Archive :=
    ((drop behavior .table rows error).map (AssetOutcome.written asset 0), archive)
  match table with
  | .error error => reject 0 error
  | .ok table =>
    match table.bars asset with
    | .ok bars => writeBars calendar behavior asset bars archive
    | .error error => reject table.height error

/-- A list of values by asset with one more put in, in place of any with the same asset. -/
def putByAsset {α : Type} (asset : AssetId) (value : α) : List (AssetId × α) → List (AssetId × α)
  | [] => [(asset, value)]
  | (other, old) :: rest =>
    if asset < other then (asset, value) :: (other, old) :: rest
    else if asset = other then (asset, value) :: rest
    else (other, old) :: putByAsset asset value rest

/-- Values in the order of their assets; of several for one asset the last counts. -/
def byAsset {α : Type} (values : List (AssetId × α)) : List (AssetId × α) :=
  values.foldl (fun ordered (asset, value) ↦ putByAsset asset value ordered) []

/-- Whether a table is to be written: there is no list of known assets, or its asset is in it. -/
def isKnown (known : Option (List AssetId)) (asset : AssetId) : Bool :=
  match known with
  | none => true
  | some assets => assets.contains asset

/-- What a batch leaves: its result, the events on the way, and the archive. -/
structure BatchResult where
  result : Except StoreError WriteSummary
  events : List WriteEvent
  archive : Archive

/-- The result with the events of an earlier table put before its own. -/
def BatchResult.after (events : List WriteEvent) (batch : BatchResult) : BatchResult :=
  { batch with events := events ++ batch.events }

/-- Writes the rest of a batch, from a position on; a failure ends it. -/
def writeFrom (calendar : Calendar) (behavior : Behavior) (known : Option (List AssetId)) :
    List Source → Nat → WriteSummary → Archive → BatchResult
  | [], _, summary, archive => ⟨.ok summary, [.batchCompleted summary], archive⟩
  | source :: rest, position, summary, archive =>
    let started := WriteEvent.started source.1 position
    let (result, archive) :=
      if isKnown known source.1 then writeTable calendar behavior source archive
      else (.ok (.skipped source.1), archive)
    match result with
    | .error error => ⟨.error error, [started], archive⟩
    | .ok outcome =>
      (writeFrom calendar behavior known rest (position + 1) (summary.record outcome)
        archive).after [started, .completed position outcome]

/-- Writes a batch of tables in order. Tables of assets that are not known are skipped; a failure
ends the batch, and what was written before it stays. -/
def writeTables (calendar : Calendar) (behavior : Behavior) (known : Option (List AssetId))
    (sources : List Source) (archive : Archive) : BatchResult :=
  writeFrom calendar behavior known sources 0 .empty archive

end Writer

/-- A writer for a range of sessions. -/
structure Writer where
  calendar : Calendar
  startSession : Day
  endSession : Day

namespace Writer

/-- The writer for a range; two different ends have to be sessions. -/
def ofBounds (calendar : Calendar) (start stop : Day) : Except StoreError Writer :=
  if start = stop then .ok ⟨calendar, start, stop⟩
  else
    match [start, stop].find? fun day ↦ !calendar.isSession day with
    | some day => .error (.invalidSession day calendar.name)
    | none => .ok ⟨calendar, start, stop⟩

end Writer

end DailyBars
