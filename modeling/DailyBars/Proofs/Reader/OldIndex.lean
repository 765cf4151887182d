import DailyBars.Proofs.Reader.Placement
import Mathlib

/-!
# Reading with an old index

Sessions, index and columns that a reader has cached may be those of older stores, and not all of
the same one. Row numbers and session positions of the index still go together, if the stores were
contiguous: `k` rows after the first row of an asset and `k` sessions after its calendar offset is
the same day, **whichever store the sessions are of** (`Store.IsContiguous.exists_row_of_position`).

So a row number that a reader computes is that of the asset and the day in the store that was
indexed. What is read at that number is another matter: a column, or the rows of an asset, may be of
a later store, where **other rows have come before**. The bar that is found is the right one exactly
if none has (`Store.Finds`).
-/

namespace DailyBars

namespace Day

/-- Where the first of two days is a day of both lists, it is as far from a common day in the one as
the other day is in the other. -/
theorem eq_of_positions_of_le {xs ys : List Day} (hx : xs.Pairwise (· < ·))
    (hy : ys.Pairwise (· < ·)) {i j k : Nat} {low a b : Day} (hi : xs[i]? = some low)
    (hj : ys[j]? = some low) (ha : xs[i + k]? = some a) (hb : ys[j + k]? = some b)
    (hagree : ∀ day, low ≤ day → day ≤ a → (day ∈ xs ↔ day ∈ ys)) : a = b := by
  have hlow : low ≤ a := getElem?_le_of_le hx hi ha (Nat.le_add_right _ _)
  have hranks := rank_add_rank hx hy hlow fun day hle hlt ↦ hagree day hle (le_of_lt hlt)
  rw [rank_eq_of_getElem? hx ha, rank_eq_of_getElem? hy hj, rank_eq_of_getElem? hx hi] at hranks
  have hplace := getElem?_rank hy ((hagree a hlow (le_refl a)).1 (List.mem_of_getElem? ha))
  rw [show rank ys a = j + k from by omega, hb] at hplace
  exact (Option.some_inj.1 hplace).symm

/-- **Ascending lists that agree from a common day on have the same days at the same distances.** -/
theorem eq_of_positions {xs ys : List Day} (hx : xs.Pairwise (· < ·)) (hy : ys.Pairwise (· < ·))
    {i j k : Nat} {low a b : Day} (hi : xs[i]? = some low) (hj : ys[j]? = some low)
    (ha : xs[i + k]? = some a) (hb : ys[j + k]? = some b)
    (hagree : ∀ day, low ≤ day → day ≤ a → day ≤ b → (day ∈ xs ↔ day ∈ ys)) : a = b := by
  rcases le_total a b with hle | hle
  · exact eq_of_positions_of_le hx hy hi hj ha hb fun day hlow hhigh ↦
      hagree day hlow hhigh (le_trans hhigh hle)
  · exact (eq_of_positions_of_le hy hx hj hi hb ha fun day hlow hhigh ↦
      (hagree day hlow (le_trans hhigh hle) hhigh).symm).symm

end Day

namespace Store

variable {calendar : Calendar} {store : Store} {asset : AssetId} {bar own : Bar} {day : Day}
  {row : Nat}

/-- The number of rows of an asset before a day. -/
def daysBefore (store : Store) (asset : AssetId) (day : Day) : Nat :=
  Day.rank ((store.assetRows asset).map Bar.day) day

/-- The bar in a row of a store, which is the one of an asset and a day exactly if the row is
theirs. -/
structure Finds (store : Store) (row : Nat) (asset : AssetId) (day : Day) (bar : Bar) : Prop where
  getElem?_row : store.rows[row]? = some bar
  isOwn_iff : bar.asset = asset ∧ bar.day = day ↔ row = store.rowsBefore asset day

/-- A stored bar stands after the rows that come before it. -/
theorem IsContiguous.getElem?_rowsBefore (h : store.IsContiguous calendar)
    (hcalendar : calendar.IsLawfulOn Day.IsUnsigned) (hbar : bar ∈ store.rows) :
    store.rows[store.rowsBefore bar.asset bar.day]? = some bar := by
  obtain ⟨k, hk⟩ := List.mem_iff_getElem?.1 (mem_assetRows.2 ⟨hbar, rfl⟩)
  rw [rowsBefore_of_getElem? (h.ascending hcalendar bar.asset) hk,
    getElem?_rows (List.getElem?_eq_some_iff.1 hk).1, hk]

/-- **Of the rows of a contiguous store one is of an asset and a day**, if these are stored. -/
theorem IsContiguous.finds (h : store.IsContiguous calendar)
    (hcalendar : calendar.IsLawfulOn Day.IsUnsigned) (hown : own ∈ store.rows)
    (hrow : store.rows[row]? = some bar) : store.Finds row own.asset own.day bar where
  getElem?_row := hrow
  isOwn_iff := by
    have hplace := h.getElem?_rowsBefore hcalendar hown
    constructor
    · rintro ⟨hasset, hday⟩
      have hsame : bar = own := List.inj_on_of_nodup_map (h.nodup_keys hcalendar)
        (List.mem_of_getElem? hrow) hown (Prod.ext hasset hday)
      have hlt := (List.getElem?_eq_some_iff.1 hrow).1
      refine (List.getElem?_inj hlt (List.Nodup.of_map _ (h.nodup_keys hcalendar))).1 ?_
      rw [hrow, hplace, hsame]
    · rintro rfl
      obtain rfl := Option.some_inj.1 (hrow.symm.trans hplace)
      exact ⟨rfl, rfl⟩

/-! ### Rows and sessions of different stores -/

variable {sessioned : Store} {offsets : AssetOffsets}

/-- **Rows of an asset move forward together with the sessions of any contiguous store.** -/
theorem IsContiguous.exists_row_of_position (h : store.IsContiguous calendar)
    (hsessioned : sessioned.IsContiguous calendar) (hcalendar : calendar.IsLawfulOn Day.IsUnsigned)
    (hlocates : OffsetIndex.Locates store (sessioned.sessions calendar) asset offsets) {k : Nat}
    (hk : k < (store.assetRows asset).length)
    (hday : (sessioned.sessions calendar).toList[offsets.calendarOffset + k]? = some day) :
    ∃ own, (store.assetRows asset)[k]? = some own ∧ own.day = day := by
  have hdays := h.ascending hcalendar asset
  have hends := h.unsigned_days asset
  obtain ⟨own, hown⟩ : ∃ own, (store.assetRows asset)[k]? = some own :=
    ⟨_, List.getElem?_eq_getElem hk⟩
  have hownDay : ((store.assetRows asset).map Bar.day)[0 + k]? = some own.day := by
    rw [Nat.zero_add, List.getElem?_map, hown, Option.map_some]
  have hfirst : ((store.assetRows asset).map Bar.day)[0]? = some offsets.firstDay := by
    rw [← List.head?_eq_getElem?]
    exact hlocates.firstDay
  -- Both lists have all sessions of the calendar, from the first day of the asset to their ends.
  refine ⟨own, hown, (Day.eq_of_positions (sessioned.sessions calendar).ascending hdays
    hlocates.calendarOffset hfirst hday hownDay fun other hlow hhigh hhigh' ↦ ?_).symm⟩
  constructor
  · intro hother
    have hlast := Day.le_getLast_of_ascending hdays hlocates.lastDay
      (List.mem_of_getElem? hownDay)
    exact (h.isRun asset).mem hcalendar hends hlocates.firstDay hlocates.lastDay hlow
      (le_trans hhigh' hlast) (hsessioned.isSession_of_mem_sessions hcalendar hother)
  · intro hother
    exact hsessioned.mem_sessions_of_between hcalendar
      (List.mem_of_getElem? hlocates.calendarOffset) (List.mem_of_getElem? hday) hlow hhigh
      ((h.isRun asset).isSession hcalendar hends hother)

end Store

namespace Reader

variable {calendar : Calendar} {sessioned indexed source store : Store} {index : OffsetIndex}
  {asset : AssetId} {day : Day} {field : Field} {value : Binary64}

/-! ### Single values -/

/-- A row that is computed is as far from the first row of the asset as the day is from the session
at its calendar offset. -/
theorem rowIndex_eq_ok {sessions : DayList} {row : Nat}
    (h : rowIndex sessions index asset day = .ok row) :
    ∃ offsets k, index.get? asset = some offsets ∧
      sessions.toList[offsets.calendarOffset + k]? = some day ∧
      offsets.firstRow + k ≤ offsets.lastRow ∧ row = offsets.firstRow + k := by
  rw [rowIndex, positionOf] at h
  cases hposition : sessions.indexOf? day with
  | none =>
    rw [hposition] at h
    cases h
  | some position =>
    cases hoffsets : index.get? asset with
    | none =>
      rw [hposition, hoffsets] at h
      cases h
    | some offsets =>
      simp only [hposition, hoffsets, bind, Except.bind] at h
      split at h
      · cases h
      rename_i hbefore
      split at h
      · cases h
      rename_i hafter
      cases h
      refine ⟨offsets, position - offsets.calendarOffset, rfl, ?_, Nat.not_lt.1 hafter, rfl⟩
      rw [Nat.add_sub_cancel' (Nat.not_lt.1 hbefore)]
      exact DayList.indexOf?_eq_some_iff.1 hposition

/-- A stored value is that of the asset and the day, or it is found by its row in the column of
another store. -/
theorem exists_of_storedValue {cache : Cache} {row : Nat} (hkeys : (store.rows.map Bar.key).Nodup)
    (hcolumns : ∀ column, cache.columns field = some column →
      column = (source.column field).toArray)
    (h : storedValue store cache asset day row field = .ok value) :
    (∃ bar ∈ store.rows, bar.asset = asset ∧ bar.day = day ∧ bar.value field = value) ∨
      ∃ bar, source.rows[row]? = some bar ∧ bar.value field = value := by
  rw [storedValue] at h
  split at h
  · rename_i found hfound
    cases h
    obtain ⟨column, hcolumn, hentry⟩ := Option.bind_eq_some_iff.1 hfound
    rw [hcolumns column hcolumn, List.getElem?_toArray, Store.column, List.getElem?_map,
      Option.map_eq_some_iff] at hentry
    exact Or.inr hentry
  · split at h
    · rename_i hvalue
      cases h
      exact Or.inl ((Store.value?_eq_some_iff hkeys).1 hvalue)
    · cases h

section

variable (hsessioned : sessioned.IsContiguous calendar) (hindexed : indexed.IsContiguous calendar)
  {name : String}
  (hbuild : OffsetIndex.build indexed.spans (sessioned.sessions calendar) name = .ok index)

include hsessioned hindexed hbuild

/-- **The row that is computed is that of the asset and the day in the indexed store.** -/
theorem exists_row_of_rowIndex (hcalendar : calendar.IsLawfulOn Day.IsUnsigned) {row : Nat}
    (hrow : rowIndex (sessioned.sessions calendar) index asset day = .ok row) :
    ∃ own ∈ indexed.rows, own.asset = asset ∧ own.day = day ∧
      row = indexed.rowsBefore asset day := by
  obtain ⟨offsets, k, hoffsets, hday, hle, rfl⟩ := rowIndex_eq_ok hrow
  have hlocates := OffsetIndex.locates_of_get? hbuild hoffsets
  have hlast := hlocates.lastRow
  have hfirst := hlocates.firstRow
  obtain ⟨own, hown, rfl⟩ :=
    hindexed.exists_row_of_position hsessioned hcalendar hlocates (by omega) hday
  obtain ⟨hmem, rfl⟩ := Store.mem_assetRows.1 (List.mem_of_getElem? hown)
  refine ⟨own, hmem, rfl, rfl, ?_⟩
  rw [Store.rowsBefore_of_getElem? (hindexed.ascending hcalendar _) hown, hfirst]

/-! ### Cells -/

variable (hlawful : calendar.IsLawful)

include hlawful

/-- **The rows that a slice takes are those of the days in the tape, in the indexed store.** -/
theorem exists_row_of_slice {start stop first last : Day} {startPosition stopPosition : Nat}
    {offsets : AssetOffsets} {slice : RowSlice} {skip i : Nat}
    (hcovers : Covers (sessioned.sessions calendar) start stop first last startPosition
      stopPosition)
    (hoffsets : index.get? asset = some offsets)
    (hnumbers : SliceNumbers indexed asset offsets startPosition stopPosition slice skip)
    (hi : i < slice.extent)
    (hrow : (calendar.sessionsIn start stop)[Day.rank (calendar.sessionsIn start stop) first +
      slice.outputOffset + i]? = some day) :
    ∃ own ∈ indexed.rows, own.asset = asset ∧ own.day = day ∧
      indexed.daysBefore asset day = skip + i := by
  have hcalendar := hlawful.isLawfulOn Day.IsUnsigned
  have hlocates := OffsetIndex.locates_of_get? hbuild hoffsets
  have hskip := hnumbers.skip_eq
  have hcount := hnumbers.extent
  have hoffset := hnumbers.offset_le
  have hle := hnumbers.skip_add_le
  rw [hnumbers.outputOffset] at hrow
  obtain ⟨session, hsession⟩ : ∃ session,
      (sessioned.sessions calendar).toList[offsets.calendarOffset + (skip + i)]? =
        some session := by
    have hlast := (List.getElem?_eq_some_iff.1 hcovers.last_mem).1
    exact ⟨_, List.getElem?_eq_getElem (by omega)⟩
  -- The session has the place in the tape that the day has, so it is the day.
  have hplace := getElem?_days hsessioned hlawful hcovers (by omega) (by omega) hsession
  rw [show Day.rank (calendar.sessionsIn start stop) first +
    (offsets.calendarOffset + (skip + i) - startPosition) =
      Day.rank (calendar.sessionsIn start stop) first +
        (offsets.calendarOffset - startPosition) + i from by omega, hrow] at hplace
  obtain rfl := Option.some_inj.1 hplace
  obtain ⟨own, hown, rfl⟩ :=
    hindexed.exists_row_of_position hsessioned hcalendar hlocates (by omega) hsession
  obtain ⟨hmem, rfl⟩ := Store.mem_assetRows.1 (List.mem_of_getElem? hown)
  refine ⟨own, hmem, rfl, rfl, Day.rank_eq_of_getElem? (hindexed.ascending hcalendar _) ?_⟩
  rw [List.getElem?_map, hown, Option.map_some]

/-- Where a slice lies among the rows of its asset in the indexed store, and which of them a row of
the tape stands for. -/
structure Placed (indexed : Store) (index : OffsetIndex) (plan : Plan) (asset : AssetId)
    (slice : RowSlice) (offsets : AssetOffsets) (skip : Nat) : Prop where
  offsets_eq : index.get? asset = some offsets
  firstRow : slice.firstRow = indexed.rowStart asset + skip
  firstRow_sub : slice.firstRow - offsets.firstRow = skip
  le_lastRow : slice.firstRow ≤ slice.lastRow
  skip_add_le : skip + slice.extent ≤ (indexed.assetRows asset).length
  exists_own : ∀ i day, i < slice.extent →
    plan.days[plan.rowOffset + slice.outputOffset + i]? = some day →
      ∃ own ∈ indexed.rows, own.asset = asset ∧ own.day = day ∧
        indexed.daysBefore asset day = skip + i

/-- Every slice of a plan is placed. -/
theorem exists_placed {start stop : Day} {assets : List AssetId} {plan : Plan}
    (hplan : Reader.plan calendar (sessioned.sessions calendar) index start stop assets =
      .ok plan) :
    ∃ sliceOf : AssetId → Option RowSlice, plan.slices = assets.map sliceOf ∧
      ∀ asset slice, sliceOf asset = some slice →
        ∃ offsets skip, Placed indexed index plan asset slice offsets skip := by
  rcases plan_cases calendar (sessioned.sessions calendar) index start stop assets
    (hlawful.ascending start stop) with ⟨-, heq⟩ | ⟨first, last, low, high, hcovers, heq⟩
  · obtain rfl := Except.ok.inj (hplan.symm.trans heq)
    exact ⟨fun _ ↦ none, rfl, fun _ _ hslice ↦ by cases hslice⟩
  · obtain rfl := Except.ok.inj (hplan.symm.trans heq)
    refine ⟨index.slice? low high, rfl, fun asset slice hslice ↦ ?_⟩
    obtain ⟨offsets, hoffsets, -⟩ := OffsetIndex.slice?_eq_some_iff.1 hslice
    obtain ⟨skip, hnumbers⟩ :=
      exists_sliceNumbers (OffsetIndex.locates_of_get? hbuild hoffsets) hoffsets hslice
    exact ⟨offsets, skip, hoffsets, hnumbers.firstRow, hnumbers.firstRow_sub, hnumbers.le_lastRow,
      hnumbers.skip_add_le, fun i day hi hday ↦ exists_row_of_slice hsessioned hindexed hbuild
        hlawful hcovers hoffsets hnumbers hi hday⟩

end

/-- A cell is missing, or shows one of the values that are placed in its column. -/
theorem eq_missing_or_exists {height base row : Nat} {stored : Array Binary64}
    (hcell : (Tape.column field height base stored)[row]? = some value) :
    value = field.missing ∨
      ∃ i found, row = base + i ∧ stored[i]? = some found ∧ value = field.present found := by
  have hrow : row < height := by
    have hlt := (Array.getElem?_eq_some_iff.1 hcell).1
    rwa [size_tapeColumn] at hlt
  rw [getElem?_tapeColumn hrow, Option.some_inj] at hcell
  split at hcell
  · rename_i hbase
    cases hfound : stored[row - base]? with
    | none =>
      rw [hfound] at hcell
      exact Or.inl hcell.symm
    | some found =>
      rw [hfound] at hcell
      exact Or.inr ⟨row - base, found, (Nat.add_sub_cancel' hbase).symm, hfound, hcell.symm⟩
  · exact Or.inl hcell.symm

theorem eq_missing_of_blankColumn {plan : Plan} {row : Nat}
    (hcell : (plan.blankColumn field)[row]? = some value) : value = field.missing := by
  rcases eq_missing_or_exists hcell with hmissing | ⟨i, found, -, hfound, -⟩
  · exact hmissing
  · cases hfound

/-- A cut has no entries but those from its first row to its last. -/
theorem lt_of_getElem?_cut {column : Array Binary64} {slice : RowSlice}
    (horder : slice.firstRow ≤ slice.lastRow) {i : Nat}
    (h : (cut column slice.firstRow slice.lastRow)[i]? = some value) :
    i < slice.extent ∧ column[slice.firstRow + i]? = some value := by
  rw [cut] at h
  split at h
  · rw [Array.getElem?_extract] at h
    split at h
    · rename_i hi
      rw [RowSlice.extent]
      exact ⟨by omega, h⟩
    · cases h
  · cases h

section

variable {plan : Plan} {assets : List AssetId} {sliceOf : AssetId → Option RowSlice}
  (hslices : plan.slices = assets.map sliceOf)
  (hplaced : ∀ asset slice, sliceOf asset = some slice →
    ∃ offsets skip, Placed indexed index plan asset slice offsets skip)
  {row col : Nat} (hday : plan.days[row]? = some day) (hcol : assets[col]? = some asset)

include hslices hplaced hday hcol

/-- **A cell out of a whole column is missing, or shows the row that has the number of its asset and
day in the indexed store.** -/
theorem exists_of_bulkTape
    (hcell : (bulkTape plan field (source.column field).toArray).get? row col = some value) :
    value = field.missing ∨ ∃ own ∈ indexed.rows, own.asset = asset ∧ own.day = day ∧
      ∃ bar, source.rows[indexed.rowsBefore asset day]? = some bar ∧
        value = field.present (bar.value field) := by
  rw [Tape.get?, columns_bulkTape hslices, List.getElem?_map, hcol, Option.map_some,
    Option.bind_some] at hcell
  cases hslice : sliceOf asset with
  | none =>
    rw [hslice] at hcell
    exact Or.inl (eq_missing_of_blankColumn hcell)
  | some slice =>
    obtain ⟨offsets, skip, hplace⟩ := hplaced asset slice hslice
    rw [hslice] at hcell
    rcases eq_missing_or_exists hcell with hmissing | ⟨i, found, rfl, hfound, rfl⟩
    · exact Or.inl hmissing
    obtain ⟨hi, hentry⟩ := lt_of_getElem?_cut hplace.le_lastRow hfound
    obtain ⟨own, hown, hasset, hownDay, hbefore⟩ := hplace.exists_own i day hi hday
    rw [List.getElem?_toArray, Store.column, List.getElem?_map, Option.map_eq_some_iff] at hentry
    obtain ⟨bar, hbar, rfl⟩ := hentry
    refine Or.inr ⟨own, hown, hasset, hownDay, bar, ?_, rfl⟩
    rw [Store.rowsBefore_eq_add, ← Store.daysBefore, hbefore, ← Nat.add_assoc, ← hplace.firstRow]
    exact hbar

/-- **A cell out of the rows of its asset is missing, or shows the row of the asset that has as many
before it as the day has in the indexed store.** -/
theorem exists_of_assetTape (hkeys : (store.rows.map Bar.key).Nodup)
    (hsub : indexed.rows.Sublist store.rows) {tape : Tape}
    (htape : assetTape store index assets plan field = .ok tape)
    (hcell : tape.get? row col = some value) :
    value = field.missing ∨ ∃ own ∈ indexed.rows, own.asset = asset ∧ own.day = day ∧
      ∃ bar, (store.assetRows asset)[indexed.daysBefore asset day]? = some bar ∧
        value = field.present (bar.value field) := by
  obtain ⟨-, -, hcolumns⟩ := (assetTape_eq_ok_iff hslices).1 htape
  obtain ⟨column, hcolumn, hcell⟩ := Option.bind_eq_some_iff.1 hcell
  obtain ⟨hlt, hasset⟩ := List.getElem?_eq_some_iff.1 hcol
  obtain ⟨hlt', hown⟩ := List.getElem?_eq_some_iff.1 hcolumn
  have hread := hcolumns.get hlt hlt'
  rw [List.get_eq_getElem, List.get_eq_getElem, hasset, hown] at hread
  cases hslice : sliceOf asset with
  | none =>
    rw [hslice] at hread
    cases hread
    exact Or.inl (eq_missing_of_blankColumn hcell)
  | some slice =>
    obtain ⟨offsets, skip, hplace⟩ := hplaced asset slice hslice
    have hle : skip + slice.extent ≤ (store.assetRows asset).length :=
      hplace.skip_add_le.trans (hsub.filter _).length_le
    rw [hslice, assetColumn_some hplace.offsets_eq
      (rowCount?_eq_some hkeys hplace.le_lastRow hle)] at hread
    cases hread
    rcases eq_missing_or_exists hcell with hmissing | ⟨i, found, rfl, hfound, rfl⟩
    · exact Or.inl hmissing
    rw [List.getElem?_toArray, hplace.firstRow_sub, Store.getElem?_assetColumn_iff hkeys hle]
      at hfound
    obtain ⟨hi, bar, hbar, rfl⟩ := hfound
    obtain ⟨own, hown, hasset, hownDay, hbefore⟩ := hplace.exists_own i day hi hday
    refine Or.inr ⟨own, hown, hasset, hownDay, bar, ?_, rfl⟩
    rw [hbefore]
    exact hbar

end

end Reader

end DailyBars
