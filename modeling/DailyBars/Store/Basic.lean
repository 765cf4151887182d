import DailyBars.Error
import DailyBars.Span

/-!
# The row store

A store is its bars in logical order: by asset, and for one asset by the text of the day. Bars of
the same asset and day keep the order in which they were added. The order is part of the type;
adding bars in any order keeps it, so that what is read never depends on how the bars came in.

A price that is not a number cannot be stored and refuses the whole addition; a negative zero is
stored as zero.
-/

namespace DailyBars

/-- Whether a bar may stand before another in the logical order. -/
def Bar.rowLe (a b : Bar) : Bool :=
  a.asset < b.asset || (a.asset == b.asset && Day.textLe a.day b.day)

theorem Bar.rowLe_iff {a b : Bar} : a.rowLe b = true ↔
    a.asset < b.asset ∨ a.asset = b.asset ∧ Day.textLe a.day b.day = true := by
  simp [Bar.rowLe]

theorem Bar.rowLe_total (a b : Bar) : (a.rowLe b || b.rowLe a) = true := by
  rw [Bool.or_eq_true, Bar.rowLe_iff, Bar.rowLe_iff]
  simp only [AssetId.lt_iff_toInt, AssetId.eq_iff_toInt]
  have htext := Day.textLe_total a.day b.day
  rw [Bool.or_eq_true] at htext
  rcases Int.lt_trichotomy a.asset.value.toInt b.asset.value.toInt with h | h | h
  · exact Or.inl (Or.inl h)
  · exact htext.imp (fun ht ↦ Or.inr ⟨h, ht⟩) fun ht ↦ Or.inr ⟨h.symm, ht⟩
  · exact Or.inr (Or.inl h)

theorem Bar.rowLe_trans {a b c : Bar} (hab : a.rowLe b = true) (hbc : b.rowLe c = true) :
    a.rowLe c = true := by
  rw [Bar.rowLe_iff] at *
  simp only [AssetId.lt_iff_toInt, AssetId.eq_iff_toInt] at *
  rcases hab with hab | ⟨hab, htab⟩ <;> rcases hbc with hbc | ⟨hbc, htbc⟩
  · exact Or.inl (Int.lt_trans hab hbc)
  · exact Or.inl (by omega)
  · exact Or.inl (by omega)
  · exact Or.inr ⟨by omega, Day.textLe_trans htab htbc⟩

/-- The bar as it is stored: a negative zero loses its sign. -/
def Bar.stored (bar : Bar) : Bar :=
  { bar with
    openPrice := bar.openPrice.dropZeroSign
    highPrice := bar.highPrice.dropZeroSign
    lowPrice := bar.lowPrice.dropZeroSign
    closePrice := bar.closePrice.dropZeroSign }

/-- Stored bars in logical order. -/
structure Store where
  rows : List Bar
  ordered : rows.Pairwise fun a b ↦ a.rowLe b = true
deriving DecidableEq

namespace Store

/-- The store without bars. -/
def empty : Store := ⟨[], List.Pairwise.nil⟩

instance : Inhabited Store := ⟨empty⟩

/-- The store of bars, put in logical order. -/
def ofBars (bars : List Bar) : Store :=
  ⟨bars.mergeSort Bar.rowLe, by
    have htrans : ∀ a b c : Bar, a.rowLe b = true → b.rowLe c = true → a.rowLe c = true :=
      fun _ _ _ ↦ Bar.rowLe_trans
    exact List.pairwise_mergeSort htrans Bar.rowLe_total bars⟩

/-- The store with bars added, after those of the same asset and day; none of them is added if one
has a price that is not a number. -/
def append? (store : Store) (bars : List Bar) : Option Store :=
  if bars.any Bar.hasNaN then none
  else some (ofBars (store.rows ++ bars.map Bar.stored))

def rowCount (store : Store) : Nat :=
  store.rows.length

/-- The stored bars of an asset. -/
def assetRows (store : Store) (asset : AssetId) : List Bar :=
  store.rows.filter fun bar ↦ bar.asset = asset

/-- The first and the last stored day of an asset, by their texts. -/
def assetBounds? (store : Store) (asset : AssetId) : Option (Day × Day) :=
  Day.textBounds? ((store.assetRows asset).map Bar.day)

/-- The first and the last stored day of all assets, by their texts. -/
def dayBounds? (store : Store) : Option (Day × Day) :=
  Day.textBounds? (store.rows.map Bar.day)

/-- The spans of all assets with stored bars, ascending by asset. -/
def spans (store : Store) : List Span :=
  Span.ofBars store.rows

/-- The values of a field in logical order. -/
def column (store : Store) (field : Field) : List Binary64 :=
  store.rows.map fun bar ↦ bar.value field

/-- The least count that does not fit a signed 64-bit number. -/
def uncounted : Nat := 0x8000000000000000

/-- The values of a field on `take` successive rows of an asset, after `skip` of them. A count that
does not fit a signed 64-bit number stands for no limit and for no rows skipped. -/
def assetColumn (store : Store) (asset : AssetId) (field : Field) (skip take : Nat) :
    List Binary64 :=
  let values := (store.assetRows asset).map fun bar ↦ bar.value field
  let rest := if skip < uncounted then values.drop skip else values
  if take < uncounted then rest.take take else rest

/-- The value of a field for an asset on a day, if that bar is stored. -/
def value? (store : Store) (asset : AssetId) (day : Day) (field : Field) : Option Binary64 :=
  (store.rows.find? fun bar ↦ bar.asset = asset && bar.day = day).map fun bar ↦ bar.value field

@[simp]
theorem rows_empty : empty.rows = [] := rfl

theorem rows_ofBars_perm (bars : List Bar) : (ofBars bars).rows.Perm bars :=
  List.mergeSort_perm _ _

end Store

end DailyBars
