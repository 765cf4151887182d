import DailyBars.Store.Basic
import DailyBars.Text.Digits

/-!
# Stores as text

The file of a store: a first line that tells it from other files, and a line for each bar in
logical order. Prices are written as words, so that nothing is rounded.
-/

namespace DailyBars

/-- The line of a bar. -/
def Bar.line (bar : Bar) : String :=
  let prices := bar.prices.map fun price ↦ toString price.bits.toNat
  " ".intercalate ([bar.asset.text, bar.day.text] ++ prices ++ [Text.int64Text bar.volume])

/-- A 64-bit number in a part of a line. -/
def Bar.int64Part? (part : String) : Option Int64 :=
  (Text.integer? part.toList).bind Text.int64?

/-- A double from its word in a part of a line. -/
def Bar.wordPart? (part : String) : Option Binary64 := do
  let n ← Text.integer? part.toList
  if 0 ≤ n ∧ n < 0x10000000000000000 then some ⟨UInt64.ofNat n.toNat⟩ else none

/-- The bar of a line. -/
def Bar.ofLine? (line : String) : Option Bar :=
  match line.splitOn " " with
  | [asset, day, openPrice, highPrice, lowPrice, closePrice, volume] => do
    return {
      asset := ⟨← int64Part? asset⟩
      day := ← (Day.read day.toList).toOption
      openPrice := ← wordPart? openPrice
      highPrice := ← wordPart? highPrice
      lowPrice := ← wordPart? lowPrice
      closePrice := ← wordPart? closePrice
      volume := ← int64Part? volume }
  | _ => none

namespace Store

/-- The first line of a store. -/
def firstLine : String := "daily bars, form 1"

/-- The text of a store. -/
def toText (store : Store) : String :=
  String.join ((firstLine :: store.rows.map Bar.line).map (· ++ "\n"))

/-- The store of a text. -/
def ofText? (text : String) : Option Store :=
  match text.splitOn "\n" with
  | [] => none
  | first :: lines =>
    if first == firstLine then
      ((lines.filter fun line ↦ !line.isEmpty).mapM Bar.ofLine?).map ofBars
    else none

end Store

end DailyBars
