import DailyBars.Proofs.Reader.Alignment
import Mathlib

/-!
# Rows of single days

A reader finds the row of an asset on a day by comparing positions in different lists: of the day
among the sessions of the dataset, of the first row of the asset among these sessions, and of the
rows in the store. On a contiguous store all of it comes down to days (`Reader.Lookup`): there is
no such session, the asset has no rows, the day is **before all of them or after all of them**, or
one of them is of that day.

The row that is found is the number of rows before the asset and the day in logical order
(`Store.rowsBefore`), which no position is needed to say.
-/

namespace DailyBars

namespace Store

variable {calendar : Calendar} {store : Store} {asset : AssetId} {bar : Bar} {day : Day}

/-- The number of rows that stand before an asset and a day, by asset and then by day. -/
def rowsBefore (store : Store) (asset : AssetId) (day : Day) : Nat :=
  store.rows.countP fun bar ↦ bar.asset < asset || (bar.asset = asset && bar.day < day)

/-- Before a day of an asset are the rows of lesser assets and the earlier rows of its own. -/
theorem rowsBefore_eq_add (store : Store) (asset : AssetId) (day : Day) :
    store.rowsBefore asset day =
      store.rowStart asset + Day.rank ((store.assetRows asset).map Bar.day) day := by
  rw [rowsBefore, rowStart, Day.rank, assetRows]
  generalize store.rows = rows
  induction rows with
  | nil => rfl
  | cons first rest ih =>
    rw [List.countP_cons, List.countP_cons, ih]
    by_cases hasset : first.asset = asset
    · rw [List.filter_cons_of_pos (by simpa using hasset), List.map_cons, List.countP_cons, hasset]
      simp only [lt_self_iff_false, decide_false, decide_true, Bool.false_or, Bool.true_and,
        Bool.false_eq_true, if_false]
      omega
    · rw [List.filter_cons_of_neg (by simpa using hasset)]
      simp only [hasset, decide_false, Bool.false_and, Bool.or_false]
      omega

/-- A row of an asset whose days ascend is found by counting. -/
theorem rowsBefore_of_getElem? (hdays : ((store.assetRows asset).map Bar.day).Pairwise (· < ·))
    {k : Nat} (hk : (store.assetRows asset)[k]? = some bar) :
    store.rowsBefore asset bar.day = store.rowStart asset + k := by
  rw [rowsBefore_eq_add, Day.rank_eq_of_getElem? hdays]
  rw [List.getElem?_map, hk, Option.map_some]

end Store

namespace Reader

variable {calendar : Calendar} {store : Store} {index : OffsetIndex} {asset : AssetId} {day : Day}
  {offsets : AssetOffsets}

/-- What the lookup of an asset and a day comes to. -/
inductive Lookup (calendar : Calendar) (store : Store) (asset : AssetId) (day : Day) :
    Except StoreError Nat → Prop
  /-- The day is no session of the dataset. -/
  | noSession (hday : ¬store.HasSession calendar day) :
      Lookup calendar store asset day (.error (.noDataOnDate day))
  /-- The asset has no rows. -/
  | noRows (hday : store.HasSession calendar day) (hnone : store.assetRows asset = []) :
      Lookup calendar store asset day (.error (.noDataForAsset asset))
  /-- The day is before all rows of the asset. -/
  | before (hday : store.HasSession calendar day) (hne : store.assetRows asset ≠ [])
      (hall : ∀ bar ∈ store.assetRows asset, day < bar.day) :
      Lookup calendar store asset day (.error (.noDataBeforeDate asset day))
  /-- The day is after all rows of the asset. -/
  | after (hday : store.HasSession calendar day) (hne : store.assetRows asset ≠ [])
      (hall : ∀ bar ∈ store.assetRows asset, bar.day < day) :
      Lookup calendar store asset day (.error (.noDataAfterDate asset day))
  /-- The bar of the asset on the day stands in the row. -/
  | found {bar : Bar} (hday : store.HasSession calendar day)
      (hrow : store.rows[store.rowsBefore asset day]? = some bar) (hasset : bar.asset = asset)
      (hbar : bar.day = day) : Lookup calendar store asset day (.ok (store.rowsBefore asset day))

namespace Lookup

variable {result : Except StoreError Nat} (h : Lookup calendar store asset day result)

include h

theorem noDataOnDate_iff :
    result = .error (.noDataOnDate day) ↔ ¬store.HasSession calendar day := by
  cases h with
  | noSession hday => exact iff_of_true rfl hday
  | noRows hday => exact iff_of_false nofun (not_not.2 hday)
  | before hday => exact iff_of_false nofun (not_not.2 hday)
  | after hday => exact iff_of_false nofun (not_not.2 hday)
  | found hday => exact iff_of_false nofun (not_not.2 hday)

variable (hday : store.HasSession calendar day)

include hday

theorem noDataForAsset_iff :
    result = .error (.noDataForAsset asset) ↔ store.assetRows asset = [] := by
  cases h with
  | noSession hnot => exact absurd hday hnot
  | noRows _ hnone => exact iff_of_true rfl hnone
  | before _ hne => exact iff_of_false nofun hne
  | after _ hne => exact iff_of_false nofun hne
  | found _ hrow hasset =>
    have hmem := Store.mem_assetRows.2 ⟨List.mem_of_getElem? hrow, hasset⟩
    exact iff_of_false nofun (List.ne_nil_of_mem hmem)

theorem noDataBeforeDate_iff (hne : store.assetRows asset ≠ []) :
    result = .error (.noDataBeforeDate asset day) ↔
      ∀ bar ∈ store.assetRows asset, day < bar.day := by
  cases h with
  | noSession hnot => exact absurd hday hnot
  | noRows _ hnone => exact absurd hnone hne
  | before _ _ hall => exact iff_of_true rfl hall
  | after _ _ hall =>
    obtain ⟨bar, hbar⟩ := List.exists_mem_of_ne_nil _ hne
    exact iff_of_false nofun fun hbefore ↦
      lt_irrefl _ (lt_trans (hall bar hbar) (hbefore bar hbar))
  | found _ hrow hasset hbarDay =>
    have hmem := Store.mem_assetRows.2 ⟨List.mem_of_getElem? hrow, hasset⟩
    exact iff_of_false nofun fun hbefore ↦ lt_irrefl _ (hbarDay ▸ hbefore _ hmem)

theorem noDataAfterDate_iff (hne : store.assetRows asset ≠ []) :
    result = .error (.noDataAfterDate asset day) ↔
      ∀ bar ∈ store.assetRows asset, bar.day < day := by
  cases h with
  | noSession hnot => exact absurd hday hnot
  | noRows _ hnone => exact absurd hnone hne
  | before _ _ hall =>
    obtain ⟨bar, hbar⟩ := List.exists_mem_of_ne_nil _ hne
    exact iff_of_false nofun fun hafter ↦
      lt_irrefl _ (lt_trans (hall bar hbar) (hafter bar hbar))
  | after _ _ hall => exact iff_of_true rfl hall
  | found _ hrow hasset hbarDay =>
    have hmem := Store.mem_assetRows.2 ⟨List.mem_of_getElem? hrow, hasset⟩
    exact iff_of_false nofun fun hafter ↦ lt_irrefl _ (hbarDay ▸ hafter _ hmem)

/-- **A session within the span of an asset has a bar**: nothing else is left. -/
theorem exists_found (hne : store.assetRows asset ≠ [])
    (hbefore : ¬∀ bar ∈ store.assetRows asset, day < bar.day)
    (hafter : ¬∀ bar ∈ store.assetRows asset, bar.day < day) :
    ∃ bar ∈ store.assetRows asset, bar.day = day ∧ result = .ok (store.rowsBefore asset day) := by
  cases h with
  | noSession hnot => exact absurd hday hnot
  | noRows _ hnone => exact absurd hnone hne
  | before _ _ hall => exact absurd hall hbefore
  | after _ _ hall => exact absurd hall hafter
  | found _ hrow hasset hbarDay =>
    exact ⟨_, Store.mem_assetRows.2 ⟨List.mem_of_getElem? hrow, hasset⟩, hbarDay, rfl⟩

end Lookup

/-- A session before the first one of an asset is before all of its rows. -/
theorem lt_of_position_lt (h : store.IsContiguous calendar)
    (hcalendar : calendar.IsLawfulOn Day.IsUnsigned)
    (hlocates : OffsetIndex.Locates store (store.sessions calendar) asset offsets) {position : Nat}
    (hday : (store.sessions calendar).toList[position]? = some day)
    (hposition : position < offsets.calendarOffset) : ∀ bar ∈ store.assetRows asset,
      day < bar.day := by
  intro bar hbar
  have hfirst := Day.head_le_of_ascending (h.ascending hcalendar asset) hlocates.firstDay
    (List.mem_map_of_mem hbar)
  by_contra hnot
  have hle := Day.le_of_getElem?_le (store.sessions calendar).ascending hlocates.calendarOffset hday
    (le_trans hfirst (not_lt.1 hnot))
  omega

/-- A session further from the first one than any row is from the first row is after all rows. -/
theorem lt_of_lt_position (h : store.IsContiguous calendar)
    (hcalendar : calendar.IsLawfulOn Day.IsUnsigned)
    (hlocates : OffsetIndex.Locates store (store.sessions calendar) asset offsets) {position : Nat}
    (hday : (store.sessions calendar).toList[position]? = some day)
    (hposition : offsets.lastRow < offsets.firstRow + (position - offsets.calendarOffset)) :
    ∀ bar ∈ store.assetRows asset, bar.day < day := by
  intro bar hbar
  obtain ⟨k, hk⟩ := List.mem_iff_getElem?.1 hbar
  obtain ⟨hlt, -⟩ := List.getElem?_eq_some_iff.1 hk
  have hsession := h.getElem?_sessions hcalendar hlocates hk
  have hfirst := hlocates.firstRow
  have hlast := hlocates.lastRow
  by_contra hnot
  have hle := Day.le_of_getElem?_le (store.sessions calendar).ascending hday hsession
    (not_lt.1 hnot)
  omega

/-- **What is found by positions is what the days say**, in every case. -/
theorem lookup_rowIndex (h : store.IsContiguous calendar)
    (hcalendar : calendar.IsLawfulOn Day.IsUnsigned) (hindex : store.index calendar = .ok index)
    (asset : AssetId) (day : Day) :
    Lookup calendar store asset day (rowIndex (store.sessions calendar) index asset day) := by
  rw [rowIndex, positionOf]
  cases hposition : (store.sessions calendar).indexOf? day with
  | none =>
    rw [DayList.indexOf?_eq_none_iff, Store.mem_sessions_iff hcalendar h.unsigned] at hposition
    exact .noSession hposition
  | some position =>
    have hday := DayList.indexOf?_eq_some_iff.1 hposition
    have hsession := (Store.mem_sessions_iff hcalendar h.unsigned).1 (List.mem_of_getElem? hday)
    cases hoffsets : index.get? asset with
    | none => exact .noRows hsession ((OffsetIndex.get?_eq_none_iff hindex).1 hoffsets)
    | some offsets =>
      have hlocates := OffsetIndex.locates_of_get? hindex hoffsets
      have hne := List.ne_nil_of_length_pos hlocates.length_pos
      by_cases hbefore : position < offsets.calendarOffset
      · have hresult : Lookup calendar store asset day (.error (.noDataBeforeDate asset day)) :=
          .before hsession hne (lt_of_position_lt h hcalendar hlocates hday hbefore)
        simpa only [bind, Except.bind, hbefore, if_true] using hresult
      by_cases hafter : offsets.lastRow < offsets.firstRow + (position - offsets.calendarOffset)
      · have hresult : Lookup calendar store asset day (.error (.noDataAfterDate asset day)) :=
          .after hsession hne (lt_of_lt_position h hcalendar hlocates hday hafter)
        simpa only [bind, Except.bind, hbefore, hafter, if_true, if_false] using hresult
      have hlt : position - offsets.calendarOffset < (store.assetRows asset).length := by
        have hfirst := hlocates.firstRow
        have hlast := hlocates.lastRow
        omega
      have hbar := List.getElem?_eq_getElem hlt
      have hbarDay : (store.assetRows asset)[position - offsets.calendarOffset].day = day := by
        have hsame := h.getElem?_sessions hcalendar hlocates hbar
        rw [Nat.add_sub_cancel' (Nat.not_lt.1 hbefore), hday] at hsame
        exact (Option.some_inj.1 hsame).symm
      have hrow : store.rowsBefore asset day =
          offsets.firstRow + (position - offsets.calendarOffset) := by
        rw [← hbarDay, Store.rowsBefore_of_getElem? (h.ascending hcalendar asset) hbar,
          hlocates.firstRow]
      have hresult : Lookup calendar store asset day (.ok (store.rowsBefore asset day)) := by
        refine .found hsession ?_ (Store.mem_assetRows.1 (List.getElem_mem hlt)).2 hbarDay
        rw [hrow, hlocates.firstRow, Store.getElem?_rows hlt, hbar]
      rw [hrow] at hresult
      simpa only [bind, Except.bind, pure, Except.pure, hbefore, hafter, if_false] using hresult

end Reader

end DailyBars
