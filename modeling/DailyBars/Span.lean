import DailyBars.Bar

/-!
# Stored spans

The span of an asset is the number of its stored bars with the least and the greatest of their
days in the order of their texts.
-/

namespace DailyBars

/-- The stored bars of an asset, in numbers. -/
structure Span where
  asset : AssetId
  rows : Nat
  firstDay : Day
  lastDay : Day
deriving DecidableEq

namespace Day

/-- The day whose text comes first. -/
def textMin (a b : Day) : Day :=
  if textLe a b then a else b

/-- The day whose text comes last. -/
def textMax (a b : Day) : Day :=
  if textLe a b then b else a

/-- The days whose texts come first and last in a list. -/
def textBounds? : List Day → Option (Day × Day)
  | [] => none
  | day :: rest => some (rest.foldl textMin day, rest.foldl textMax day)

end Day

namespace Span

/-- The span of a single bar. -/
def ofBar (bar : Bar) : Span :=
  ⟨bar.asset, 1, bar.day, bar.day⟩

/-- The span with one more bar of its asset. -/
def add (span : Span) (bar : Bar) : Span :=
  { span with
    rows := span.rows + 1
    firstDay := Day.textMin bar.day span.firstDay
    lastDay := Day.textMax bar.day span.lastDay }

/-- The spans of bars, given the spans of those after the first bar. -/
def push (bar : Bar) : List Span → List Span
  | [] => [ofBar bar]
  | span :: rest =>
    if span.asset = bar.asset then span.add bar :: rest else ofBar bar :: span :: rest

/-- The spans of bars that are grouped by their asset, in the order of the groups. -/
def ofBars (bars : List Bar) : List Span :=
  bars.foldr push []

end Span

end DailyBars
