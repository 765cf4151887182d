import DailyBars.Proofs.OffsetIndex.Build
import DailyBars.Proofs.Reader.Coherence
import Mathlib

/-!
# Two ways to load

A range read cuts whole columns at row numbers of the store, or reads the rows of each asset by
their places within the asset. The first number is the second with the start of the asset's block
added, so both ways give the same values (`Reader.assetTape_eq_bulkTape`) and the threshold between
them is no part of the answer (`Reader.computes_load`).

**What the second way needs is that an asset has few rows**, since a count of 2 ^ 63 or more stands
for no limit, and one of 2 ^ 64 is none. Where no asset has a day twice there are no more rows than
days (`Store.length_assetRows_lt`).
-/

namespace DailyBars

namespace Store

variable {store : Store} {asset : AssetId} {field : Field}

theorem length_assetRows_lt (hkeys : (store.rows.map Bar.key).Nodup) (asset : AssetId) :
    (store.assetRows asset).length < uncounted := by
  have hle := Day.length_le_of_nodup (nodup_keys_iff.1 hkeys asset)
  rw [List.length_map] at hle
  exact Nat.lt_of_le_of_lt hle (by decide)

/-- The values of some rows of an asset; no count is so great that it stands for no limit. -/
theorem assetColumn_eq_take (hkeys : (store.rows.map Bar.key).Nodup) {skip take : Nat}
    (h : skip + take ≤ (store.assetRows asset).length) :
    store.assetColumn asset field skip take =
      (((store.assetRows asset).drop skip).take take).map fun bar ↦ bar.value field := by
  have hlength := length_assetRows_lt hkeys asset
  rw [assetColumn, if_pos (by omega), if_pos (by omega), ← List.map_drop, ← List.map_take]

/-- An entry is the value of the row that is as many rows after the skipped ones. -/
theorem getElem?_assetColumn_iff (hkeys : (store.rows.map Bar.key).Nodup) {skip take i : Nat}
    (h : skip + take ≤ (store.assetRows asset).length) {value : Binary64} :
    (store.assetColumn asset field skip take)[i]? = some value ↔
      i < take ∧
        ∃ bar, (store.assetRows asset)[skip + i]? = some bar ∧ bar.value field = value := by
  rw [assetColumn_eq_take hkeys h, List.getElem?_map, Option.map_eq_some_iff, List.getElem?_take]
  split
  · rename_i hi
    rw [List.getElem?_drop, and_iff_right hi]
  · rename_i hi
    refine iff_of_false ?_ fun h ↦ hi h.1
    rintro ⟨bar, hbar, -⟩
    cases hbar

/-- Successive values of an asset are successive entries of the column. -/
theorem assetColumn_eq_column (hkeys : (store.rows.map Bar.key).Nodup) {skip take : Nat}
    (h : skip + take ≤ (store.assetRows asset).length) :
    store.assetColumn asset field skip take =
      ((store.column field).drop (store.rowStart asset + skip)).take take := by
  rw [assetColumn_eq_take hkeys h, ← take_drop_rows h, column, List.map_take, List.map_drop]

end Store

/-- The rows of an asset in an index are counted. -/
theorem OffsetIndex.Locates.rowCount?_eq_some {store : Store} {sessions : DayList}
    {asset : AssetId} {offsets : AssetOffsets}
    (h : OffsetIndex.Locates store sessions asset offsets)
    (hkeys : (store.rows.map Bar.key).Nodup) :
    offsets.rowCount? = some (store.assetRows asset).length := by
  have hlength := Store.length_assetRows_lt hkeys asset
  have hpos := h.length_pos
  have hfirst := h.firstRow
  have hlast := h.lastRow
  rw [Store.uncounted] at hlength
  exact Word.countRows?_eq_some_iff.2 ⟨by omega, h.firstRow_add, by omega⟩

namespace Reader

variable {calendar : Calendar} {store : Store} {sessions : DayList} {index : OffsetIndex}
  {start stop : Day} {assets : List AssetId} {plan : Plan} {field : Field}

/-! ### Both ways address the same rows -/

/-- A plan has one slice for each asset, each taken from the index or absent. -/
theorem exists_slices_eq (h : Reader.plan calendar sessions index start stop assets = .ok plan) :
    ∃ sliceOf : AssetId → Option RowSlice, plan.slices = assets.map sliceOf ∧
      ∀ asset slice, sliceOf asset = some slice →
        ∃ first last, index.slice? first last asset = some slice := by
  rw [Reader.plan] at h
  split at h
  · obtain ⟨startPosition, -, h⟩ := Result.bind_eq_ok_iff.1 h
    obtain ⟨stopPosition, -, h⟩ := Result.bind_eq_ok_iff.1 h
    cases h
    exact ⟨index.slice? startPosition stopPosition, rfl, fun _ _ hslice ↦ ⟨_, _, hslice⟩⟩
  · cases h
    exact ⟨fun _ ↦ none, rfl, fun _ _ hslice ↦ by cases hslice⟩

/-- A slice in numbers: it skips the rows before the range, takes those up to the end of the range
or of the asset, and all of them are rows of its asset. -/
structure SliceNumbers (store : Store) (asset : AssetId) (offsets : AssetOffsets)
    (first last : Nat) (slice : RowSlice) (skip : Nat) : Prop where
  offset_le : offsets.calendarOffset ≤ last
  skip_eq : skip = first - offsets.calendarOffset
  firstRow : slice.firstRow = store.rowStart asset + skip
  firstRow_sub : slice.firstRow - offsets.firstRow = skip
  le_lastRow : slice.firstRow ≤ slice.lastRow
  extent : slice.extent =
    min (last - offsets.calendarOffset) (offsets.lastRow - offsets.firstRow) + 1 - skip
  outputOffset : slice.outputOffset = offsets.calendarOffset - first
  skip_add_le : skip + slice.extent ≤ (store.assetRows asset).length

theorem exists_sliceNumbers {asset : AssetId} {first last : Nat} {slice : RowSlice}
    {offsets : AssetOffsets} (hlocates : OffsetIndex.Locates store sessions asset offsets)
    (hoffsets : index.get? asset = some offsets)
    (hslice : index.slice? first last asset = some slice) :
    ∃ skip, SliceNumbers store asset offsets first last slice skip := by
  obtain ⟨offsets', hoffsets', ⟨horder, hend, hstart⟩, rfl⟩ :=
    OffsetIndex.slice?_eq_some_iff.1 hslice
  obtain rfl := Option.some_inj.1 (hoffsets.symm.trans hoffsets')
  have hlength := hlocates.firstRow_add
  have hfirstRow := hlocates.firstRow
  rw [AssetOffsets.calendarEnd] at hend
  refine ⟨first - offsets.calendarOffset, hstart, rfl, by rw [hfirstRow], ?_, ?_, ?_, rfl, ?_⟩
  all_goals simp only [RowSlice.extent]
  all_goals omega

/-- The rows of a slice are counted, since its asset has few. -/
theorem rowCount?_eq_some (hkeys : (store.rows.map Bar.key).Nodup) {asset : AssetId}
    {slice : RowSlice} {skip : Nat} (horder : slice.firstRow ≤ slice.lastRow)
    (hle : skip + slice.extent ≤ (store.assetRows asset).length) :
    slice.rowCount? = some slice.extent := by
  have hlength := Store.length_assetRows_lt hkeys asset
  rw [Store.uncounted] at hlength
  exact RowSlice.rowCount?_eq_some_iff.2 ⟨horder, rfl, by omega⟩

theorem cut_toArray {column : List Binary64} {first last : Nat} (h : last < column.length) :
    cut column.toArray first last = ((column.drop first).take (last + 1 - first)).toArray := by
  rw [cut, if_pos (by simpa using h), List.extract_toArray, List.extract_eq_take_drop]

/-- **Cut out of the column or read by asset, the rows of a slice have the same values.** -/
theorem cut_eq_assetColumn (hkeys : (store.rows.map Bar.key).Nodup) {asset : AssetId}
    {first last : Nat} {slice : RowSlice} {offsets : AssetOffsets}
    (hlocates : OffsetIndex.Locates store sessions asset offsets)
    (hoffsets : index.get? asset = some offsets)
    (hslice : index.slice? first last asset = some slice) :
    cut (store.column field).toArray slice.firstRow slice.lastRow =
      (store.assetColumn asset field (slice.firstRow - offsets.firstRow)
        slice.extent).toArray := by
  obtain ⟨skip, hnumbers⟩ := exists_sliceNumbers hlocates hoffsets hslice
  have hfirst := hnumbers.firstRow
  have horder := hnumbers.le_lastRow
  have hcount := hnumbers.skip_add_le
  have hrows := store.rowStart_add_le asset
  have hlast : slice.lastRow + 1 - slice.firstRow = slice.extent := by
    rw [RowSlice.extent]
    omega
  have hcolumn : (store.column field).length = store.rows.length := List.length_map _
  rw [cut_toArray (by rw [RowSlice.extent] at hcount; omega), hlast, hnumbers.firstRow_sub,
    Store.assetColumn_eq_column hkeys hcount, hfirst]

theorem assetColumn_some {asset : AssetId} {slice : RowSlice} {offsets : AssetOffsets} {count : Nat}
    (hoffsets : index.get? asset = some offsets) (hcount : slice.rowCount? = some count) :
    assetColumn store index plan field asset (some slice) =
      .ok (plan.column field slice
        (store.assetColumn asset field (slice.firstRow - offsets.firstRow) count).toArray) := by
  simp only [assetColumn, hoffsets, hcount]

/-- The columns that are cut out of the column of a store. -/
theorem columns_bulkTape {sliceOf : AssetId → Option RowSlice}
    (h : plan.slices = assets.map sliceOf) (column : Array Binary64) :
    (bulkTape plan field column).columns = assets.map fun asset ↦
      match sliceOf asset with
      | some slice => plan.column field slice (cut column slice.firstRow slice.lastRow)
      | none => plan.blankColumn field := by
  rw [bulkTape, h, List.map_map]
  rfl

/-- A tape that is read by asset has the columns of the assets, one after the other. -/
theorem assetTape_eq_ok_iff {sliceOf : AssetId → Option RowSlice}
    (h : plan.slices = assets.map sliceOf) {tape : Tape} :
    assetTape store index assets plan field = .ok tape ↔
      tape.field = field ∧ tape.days = plan.days ∧
        List.Forall₂ (fun asset column ↦
          assetColumn store index plan field asset (sliceOf asset) = .ok column)
          assets tape.columns := by
  have hzip : assets.zip plan.slices = assets.map fun asset ↦ (asset, sliceOf asset) := by
    rw [h]
    exact List.map_prod_left_eq_zip.symm
  rw [assetTape, hzip, Result.bind_eq_ok_iff]
  constructor
  · rintro ⟨columns, hcolumns, heq⟩
    cases heq
    exact ⟨rfl, rfl, List.forall₂_map_left_iff.1 (Result.mapM_eq_ok_iff.1 hcolumns)⟩
  · obtain ⟨-, -, columns⟩ := tape
    rintro ⟨rfl, rfl, hcolumns⟩
    exact ⟨columns, Result.mapM_eq_ok_iff.2 (List.forall₂_map_left_iff.2 hcolumns), rfl⟩

/-- **A tape that is read by asset is the one that is cut out of the column.** -/
theorem assetTape_eq_bulkTape (hkeys : (store.rows.map Bar.key).Nodup)
    (hindex : store.index calendar = .ok index)
    (hplan : Reader.plan calendar sessions index start stop assets = .ok plan) :
    assetTape store index assets plan field =
      .ok (bulkTape plan field (store.column field).toArray) := by
  obtain ⟨sliceOf, hslices, hslice⟩ := exists_slices_eq hplan
  refine (assetTape_eq_ok_iff hslices).2 ⟨rfl, rfl, ?_⟩
  rw [columns_bulkTape hslices, List.forall₂_map_right_iff]
  refine List.forall₂_same.2 fun asset _ ↦ ?_
  cases hsome : sliceOf asset with
  | none => rfl
  | some slice =>
    obtain ⟨first, last, hfound⟩ := hslice asset slice hsome
    obtain ⟨offsets, hoffsets, -⟩ := OffsetIndex.slice?_eq_some_iff.1 hfound
    have hlocates := OffsetIndex.locates_of_get? hindex hoffsets
    obtain ⟨skip, hnumbers⟩ := exists_sliceNumbers hlocates hoffsets hfound
    have hcount := rowCount?_eq_some hkeys hnumbers.le_lastRow hnumbers.skip_add_le
    rw [assetColumn_some hoffsets hcount, ← cut_eq_assetColumn hkeys hlocates hoffsets hfound]

/-! ### Loading -/

/-- What a range read answers, said without a cache and without a threshold. -/
def tapes (calendar : Calendar) (store : Store) (fields : List Field) (start stop : Day)
    (assets : List AssetId) : Except StoreError (List Tape) := do
  let index ← store.index calendar
  let plan ← Reader.plan calendar (store.sessions calendar) index start stop assets
  return fields.map fun field ↦ bulkTape plan field (store.column field).toArray

/-- **A range read has one answer, whatever the threshold and whatever is cached.** -/
theorem computes_load (reader : Reader) (hkeys : (reader.store.rows.map Bar.key).Nodup)
    (fields : List Field) (start stop : Day) (assets : List AssetId) :
    Cached.Computes reader.calendar reader.store (reader.load fields start stop assets)
      (tapes reader.calendar reader.store fields start stop assets) := by
  refine reader.computes_index.bind fun index hindex ↦ reader.computes_sessions.then ?_
  refine (Cached.computes_lift _).bind fun plan hplan ↦ ?_
  -- The only use of the threshold: whole columns, or asset by asset.
  split
  · refine (Cached.computes_mapM (fun field ↦ (reader.computes_column field).map (field, ·))
      fields).then ?_
    have hsame : ((fields.map fun field ↦ (field, (reader.store.column field).toArray)).map
        fun entry ↦ bulkTape plan entry.1 entry.2) =
        fields.map fun field ↦ bulkTape plan field (reader.store.column field).toArray := by
      rw [List.map_map]
      rfl
    rw [← hsame]
    exact Cached.answers_pure rfl
  · have htapes : fields.mapM (assetTape reader.store index assets plan) =
        .ok (fields.map fun field ↦ bulkTape plan field (reader.store.column field).toArray) :=
      Result.mapM_eq_ok_iff.2 <| List.forall₂_map_right_iff.2 <|
        List.forall₂_same.2 fun field _ ↦ assetTape_eq_bulkTape hkeys hindex hplan
    rw [htapes]
    exact Cached.answers_pure rfl

end Reader

end DailyBars
