import DailyBars.Proofs.Dataset.Coherence
import DailyBars.Proofs.OffsetIndex.Tiling
import Mathlib

/-!
# Row numbers of a dataset

After any calls on a dataset there is an index, from any cache that the calls leave, and it names
every row: the intervals of the assets tile the rows of the store, and the row that is `k` rows
after the first of an asset is **the bar of that asset on the session `k` after its calendar
offset**.

The intervals need nothing of the days (`OffsetIndex.tiles_of_build`); that there is an index, and
that sessions go along with rows, rests on the store being contiguous.
-/

namespace DailyBars

/-- **Rows are strictly ascending** by asset and day, on a contiguous store. -/
theorem Store.IsContiguous.rows_ascending {calendar : Calendar} {store : Store}
    (h : store.IsContiguous calendar) (hcalendar : calendar.IsLawfulOn Day.IsUnsigned) :
    store.rows.Pairwise fun a b ↦ a.asset < b.asset ∨ a.asset = b.asset ∧ a.day < b.day := by
  have hkeys : store.rows.Pairwise fun a b ↦ a.key ≠ b.key :=
    List.pairwise_map.1 (h.nodup_keys hcalendar)
  refine (store.ordered.and hkeys).imp_of_mem fun {a b} ha hb hab ↦ ?_
  rcases Bar.rowLe_iff.1 hab.1 with hlt | ⟨hasset, htext⟩
  · exact Or.inl hlt
  · have hle := (Day.textLe_iff_le (h.unsigned a ha) (h.unsigned b hb)).1 htext
    exact Or.inr ⟨hasset, lt_of_le_of_ne hle fun hday ↦ hab.2 (Prod.ext hasset hday)⟩

/-- **An index names every row of its dataset**, after any calls under a lawful calendar. -/
theorem index_names_rows {calendar : Calendar} (hcalendar : calendar.IsLawfulOn Day.IsUnsigned)
    (calls : List Call) (hdays : ∀ call ∈ calls, call.HasUnsignedDays) (threshold : Nat) :
    let archive := run calendar calls .empty
    let store := archive.store
    let reader : Reader := ⟨store, calendar, threshold⟩
    store.rows.Pairwise (fun a b ↦ a.asset < b.asset ∨ a.asset = b.asset ∧ a.day < b.day) ∧
    ∃ sessions index, (reader.sessions.run archive.cache).1 = .ok sessions ∧
      (reader.index.run archive.cache).1 = .ok index ∧
      (∀ asset, index.contains asset = true ↔ ∃ bar ∈ store.rows, bar.asset = asset) ∧
      index.totalRows = store.rowCount ∧
      (∃ assets, assets.Pairwise (· < ·) ∧
        (∀ asset, asset ∈ assets ↔ index.contains asset = true) ∧ index.size = assets.length ∧
        index.Tiles 0 assets index.totalRows) ∧
      ∀ asset offsets, index.get? asset = some offsets →
        offsets.rowCount? = some (store.assetRows asset).length ∧
        (∀ k, offsets.firstRow + k ≤ offsets.lastRow → ∃ bar,
          store.rows[offsets.firstRow + k]? = some bar ∧ bar.asset = asset ∧
          sessions.get? (offsets.calendarOffset + k) = some bar.day) ∧
        ∃ last, ((store.assetRows asset).map Bar.day).getLast? = some last ∧
          sessions.indexOf? last = some offsets.calendarEnd := by
  intro archive store reader
  have hcontiguous : store.IsContiguous calendar := isContiguous_run_empty hcalendar hdays
  have hcoherent : archive.cache.IsCoherent calendar store := isCoherent_run_empty calendar calls
  obtain ⟨index, hindex⟩ := hcontiguous.exists_index hcalendar
  have hcontains : ∀ asset, index.contains asset = true ↔ ∃ bar ∈ store.rows, bar.asset = asset :=
    fun _ ↦ OffsetIndex.contains_iff_of_build hindex
  refine ⟨hcontiguous.rows_ascending hcalendar, store.sessions calendar, index,
    (reader.computes_sessions _ hcoherent).1, (reader.computes_index _ hcoherent).1.trans hindex,
    hcontains, OffsetIndex.totalRows_of_build hindex,
    ⟨store.spans.map Span.asset, List.pairwise_map.2 store.spans_ascending, fun asset ↦ ?_, ?_,
      OffsetIndex.tiles_of_build hindex⟩, fun asset offsets hoffsets ↦ ?_⟩
  · rw [hcontains, OffsetIndex.mem_map_spans_asset_iff]
  · rw [OffsetIndex.size_of_build hindex, List.length_map]
  have hlocates := OffsetIndex.locates_of_get? hindex hoffsets
  have hrow : ∀ {k}, k ≤ offsets.lastRow - offsets.firstRow → ∃ bar,
      store.rows[offsets.firstRow + k]? = some bar ∧ bar.asset = asset ∧
        (store.sessions calendar).toList[offsets.calendarOffset + k]? = some bar.day :=
    Reader.exists_bar_of_lt hcontiguous hcalendar hlocates
  refine ⟨hlocates.rowCount?_eq_some (hcontiguous.nodup_keys hcalendar), fun k hk ↦ ?_,
    offsets.lastDay, hlocates.lastDay, ?_⟩
  · obtain ⟨bar, hbar, hasset, hday⟩ := hrow (Nat.le_sub_of_add_le' hk)
    exact ⟨bar, hbar, hasset, (Array.getElem?_toList).symm.trans hday⟩
  · -- The last row of the asset is as far from the first as the last session from the first one.
    rw [DayList.indexOf?_eq_some_iff, AssetOffsets.calendarEnd]
    have hlast : (store.assetRows asset)[offsets.lastRow - offsets.firstRow]?.map Bar.day =
        some offsets.lastDay := by
      rw [← hlocates.lastDay, List.getLast?_eq_getElem?, List.length_map, ← hlocates.firstRow_add,
        Nat.add_sub_cancel, List.getElem?_map]
    obtain ⟨bar, hbar, hday⟩ := Option.map_eq_some_iff.1 hlast
    rw [← hday]
    exact hcontiguous.getElem?_sessions hcalendar hlocates hbar

namespace Sample

/-- The greater asset is written first, and its days begin later. -/
def twoAssets : List Call :=
  [.write .raise ⟨8⟩ [bar ⟨8⟩ 1 10, bar ⟨8⟩ 2 20], .write .warn ⟨7⟩ [bar ⟨7⟩ 0 30, bar ⟨7⟩ 1 40]]

theorem hasUnsignedDays_twoAssets : ∀ call ∈ twoAssets, call.HasUnsignedDays := by
  simp [twoAssets, Call.HasDays, bar]
  decide

end Sample

theorem index_names_rows_of_twoAssets :
    let archive := run Sample.weekdays Sample.twoAssets .empty
    let reader : Reader := ⟨archive.store, Sample.weekdays, 1⟩
    ∃ sessions index offsets, (reader.sessions.run archive.cache).1 = .ok sessions ∧
      (reader.index.run archive.cache).1 = .ok index ∧ index.totalRows = archive.store.rowCount ∧
      index.get? ⟨8⟩ = some offsets ∧ offsets.rowCount? = some 2 ∧ offsets.firstRow = 2 ∧
      offsets.calendarOffset = 1 ∧ ∃ bar, archive.store.rows[3]? = some bar ∧ bar.asset = ⟨8⟩ ∧
        sessions.get? 2 = some bar.day := by
  dsimp only
  have hanswer : ((Reader.index ⟨(run Sample.weekdays Sample.twoAssets .empty).store,
      Sample.weekdays, 1⟩).run (run Sample.weekdays Sample.twoAssets .empty).cache).1 =
      .ok ⟨[(⟨8⟩, ⟨2, 3, 1, Sample.day 1, Sample.day 2⟩),
        (⟨7⟩, ⟨0, 1, 0, Sample.day 0, Sample.day 1⟩)], 4⟩ := by cbv
  have hlength :
      ((run Sample.weekdays Sample.twoAssets .empty).store.assetRows ⟨8⟩).length = 2 := by
    cbv
  obtain ⟨-, sessions, index, hsessions, hindex, -, htotal, -, hoffsets⟩ := index_names_rows
    Sample.isLawfulOn_weekdays Sample.twoAssets Sample.hasUnsignedDays_twoAssets 1
  obtain rfl := Except.ok.inj (hanswer.symm.trans hindex)
  obtain ⟨hcount, hrows, -⟩ := hoffsets ⟨8⟩ ⟨2, 3, 1, Sample.day 1, Sample.day 2⟩ (by cbv)
  exact ⟨sessions, _, _, hsessions, hindex, htotal, by cbv, hcount.trans (congrArg some hlength),
    rfl, rfl, hrows 1 (by decide)⟩

end DailyBars
