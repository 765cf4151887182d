import DailyBars.Proofs.Day.Ranges
import DailyBars.Proofs.Reader.Values
import Mathlib

/-!
# Where values are placed

A range read goes through four systems of coordinates: the sessions of the range, the positions in
the dataset, the rows of the store and the rows of a tape. The first two move forward together from
the first covered session on (`Reader.getElem?_days`), and so do the second and the third from the
first row of an asset on (`OffsetIndex.aligns_of_isRun`). What is left is arithmetic:
**a row of an asset has a place in the tape exactly if its day is in the range, and that place is
the row of its day** (`Reader.slice_value_iff`).

The calendar has to be lawful on the ends of the range too, which need not be days of the dataset.
-/

namespace DailyBars

namespace Reader

variable {calendar : Calendar} {store : Store} {sessions : DayList} {index : OffsetIndex}
  {start stop first last day : Day} {startPosition stopPosition : Nat}

/-! ### The covered sessions -/

/-- The positions of the first and the last session of the dataset in a range. -/
structure Covers (sessions : DayList) (start stop first last : Day)
    (startPosition stopPosition : Nat) : Prop where
  first_mem : sessions.toList[startPosition]? = some first
  last_mem : sessions.toList[stopPosition]? = some last
  start_le : start ≤ first
  le_stop : last ≤ stop
  within : ∀ day ∈ sessions.toList, start ≤ day → day ≤ stop → first ≤ day ∧ day ≤ last

/-- A range covers sessions of the dataset, or none of them. -/
theorem plan_cases (calendar : Calendar) (sessions : DayList) (index : OffsetIndex)
    (start stop : Day) (assets : List AssetId)
    (hdays : (calendar.sessionsIn start stop).Pairwise (· < ·)) :
    ((∀ day ∈ sessions.toList, ¬(start ≤ day ∧ day ≤ stop)) ∧
      Reader.plan calendar sessions index start stop assets =
        .ok ⟨calendar.sessionsIn start stop, 0, assets.map fun _ ↦ none⟩) ∨
    ∃ first last startPosition stopPosition,
      Covers sessions start stop first last startPosition stopPosition ∧
      Reader.plan calendar sessions index start stop assets =
        .ok ⟨calendar.sessionsIn start stop, Day.rank (calendar.sessionsIn start stop) first,
          assets.map (index.slice? startPosition stopPosition)⟩ := by
  by_cases hnil : sessions.between start stop = []
  · refine Or.inl ⟨fun day hday hrange ↦ ?_, ?_⟩
    · exact List.eq_nil_iff_forall_not_mem.1 hnil day (DayList.mem_between.2 ⟨hday, hrange⟩)
    · rw [Reader.plan, hnil]
      rfl
  · obtain ⟨first, last, startPosition, stopPosition, hfirst, hlast, hstart, hstop⟩ :=
      DayList.exists_positions hnil
    refine Or.inr ⟨first, last, startPosition, stopPosition, ?_, ?_⟩
    · exact {
        first_mem := DayList.indexOf?_eq_some_iff.1 hstart
        last_mem := DayList.indexOf?_eq_some_iff.1 hstop
        start_le := (DayList.mem_between.1 (List.mem_of_head? hfirst)).2.1
        le_stop := (DayList.mem_between.1 (List.mem_of_getLast? hlast)).2.2
        within := fun day hday hlow hhigh ↦
          (DayList.between_ends_iff hfirst hlast hday).2 ⟨hlow, hhigh⟩ }
    · unfold Reader.plan positionOf
      simp only [hfirst, hlast, hstart, hstop, Day.partitionPoint_lt hdays]
      rfl

/-- **Sessions of the dataset and sessions of the range move forward together**, from the first
covered session to the last. -/
theorem getElem?_days (h : store.IsContiguous calendar) (hcalendar : calendar.IsLawful)
    (hcovers : Covers (store.sessions calendar) start stop first last startPosition stopPosition)
    {position : Nat} (hlow : startPosition ≤ position) (hhigh : position ≤ stopPosition)
    (hday : (store.sessions calendar).toList[position]? = some day) :
    (calendar.sessionsIn start stop)[Day.rank (calendar.sessionsIn start stop) first +
      (position - startPosition)]? = some day := by
  have hlawful := hcalendar.isLawfulOn Day.IsUnsigned
  have hsessions := (store.sessions calendar).ascending
  have hdays := hcalendar.ascending start stop
  have hfirst : first ≤ day := Day.getElem?_le_of_le hsessions hcovers.first_mem hday hlow
  have hlast : day ≤ last := Day.getElem?_le_of_le hsessions hday hcovers.last_mem hhigh
  have hfirstMem := List.mem_of_getElem? hcovers.first_mem
  have hdayMem := List.mem_of_getElem? hday
  have hrange : ∀ other ∈ (store.sessions calendar).toList, first ≤ other → other ≤ day →
      other ∈ calendar.sessionsIn start stop := by
    intro other hother hlow hhigh
    rw [hcalendar.mem_iff]
    exact ⟨le_trans hcovers.start_le hlow,
      le_trans hhigh (le_trans hlast hcovers.le_stop),
      h.isSession_of_mem_sessions hlawful hother⟩
  -- Between two sessions of the dataset, the range and the dataset have the same sessions.
  have hagree : ∀ other, first ≤ other → other < day →
      (other ∈ (store.sessions calendar).toList ↔ other ∈ calendar.sessionsIn start stop) := by
    intro other hlow hhigh
    refine ⟨fun hother ↦ hrange other hother hlow (le_of_lt hhigh), fun hother ↦ ?_⟩
    exact h.mem_sessions_of_between hlawful hfirstMem hdayMem hlow (le_of_lt hhigh)
      ((hcalendar.mem_iff _ _ _).1 hother).2.2
  have hranks := Day.rank_add_rank hsessions hdays hfirst hagree
  rw [Day.rank_eq_of_getElem? hsessions hday,
    Day.rank_eq_of_getElem? hsessions hcovers.first_mem] at hranks
  rw [show Day.rank (calendar.sessionsIn start stop) first + (position - startPosition) =
    Day.rank (calendar.sessionsIn start stop) day from by omega]
  exact Day.getElem?_rank hdays (hrange day hdayMem hfirst (le_refl day))

/-! ### The rows of an asset -/

variable {asset : AssetId} {offsets : AssetOffsets} {slice : RowSlice} {bar : Bar} {row k : Nat}
  {field : Field} {value : Binary64}

/-- The position of a row of an asset, if its day is in the range. -/
theorem position_of_mem_days (h : store.IsContiguous calendar) (hcalendar : calendar.IsLawful)
    (hcovers : Covers (store.sessions calendar) start stop first last startPosition stopPosition)
    (hlocates : OffsetIndex.Locates store (store.sessions calendar) asset offsets)
    (hbar : (store.assetRows asset)[k]? = some bar)
    (hrow : (calendar.sessionsIn start stop)[row]? = some bar.day) :
    startPosition ≤ offsets.calendarOffset + k ∧ offsets.calendarOffset + k ≤ stopPosition ∧
      row = Day.rank (calendar.sessionsIn start stop) first +
        (offsets.calendarOffset + k - startPosition) := by
  have hsessions := (store.sessions calendar).ascending
  have hposition := h.getElem?_sessions (hcalendar.isLawfulOn _) hlocates hbar
  obtain ⟨hstart, hstop, -⟩ := (hcalendar.mem_iff _ _ _).1 (List.mem_of_getElem? hrow)
  obtain ⟨hfirst, hlast⟩ := hcovers.within bar.day (List.mem_of_getElem? hposition) hstart hstop
  have hlow := Day.le_of_getElem?_le hsessions hcovers.first_mem hposition hfirst
  have hhigh := Day.le_of_getElem?_le hsessions hposition hcovers.last_mem hlast
  have hplace := getElem?_days h hcalendar hcovers hlow hhigh hposition
  have hdays := hcalendar.ascending start stop
  exact ⟨hlow, hhigh,
    (Day.rank_eq_of_getElem? hdays hrow).symm.trans (Day.rank_eq_of_getElem? hdays hplace)⟩

/-- The values of a slice are those of the rows that it takes. -/
theorem getElem?_slice_iff (hkeys : (store.rows.map Bar.key).Nodup) {start stop skip i : Nat}
    (hnumbers : SliceNumbers store asset offsets start stop slice skip) :
    (store.assetColumn asset field (slice.firstRow - offsets.firstRow) slice.extent)[i]? =
        some value ↔
      i < slice.extent ∧
        ∃ bar, (store.assetRows asset)[skip + i]? = some bar ∧ bar.value field = value := by
  rw [hnumbers.firstRow_sub]
  exact Store.getElem?_assetColumn_iff hkeys hnumbers.skip_add_le

/-- **A slice has a value for the row of a day exactly if that day is stored**, and the same one. -/
theorem slice_value_iff (h : store.IsContiguous calendar) (hcalendar : calendar.IsLawful)
    (hcovers : Covers (store.sessions calendar) start stop first last startPosition stopPosition)
    (hlocates : OffsetIndex.Locates store (store.sessions calendar) asset offsets) {skip : Nat}
    (hnumbers : SliceNumbers store asset offsets startPosition stopPosition slice skip)
    (hrow : (calendar.sessionsIn start stop)[row]? = some day) {base : Nat}
    (hbase : base = Day.rank (calendar.sessionsIn start stop) first + slice.outputOffset) :
    base ≤ row ∧ (store.assetColumn asset field (slice.firstRow - offsets.firstRow)
        slice.extent)[row - base]? = some value ↔
      store.value? asset day field = some value := by
  have hkeys := h.nodup_keys (hcalendar.isLawfulOn _)
  have hlength := hlocates.firstRow_add
  have hskip := hnumbers.skip_eq
  have hcount := hnumbers.extent
  have hoffset := hnumbers.offset_le
  rw [hnumbers.outputOffset] at hbase
  rw [getElem?_slice_iff hkeys hnumbers, Store.value?_eq_some_iff hkeys]
  constructor
  · rintro ⟨hlow, hi, bar, hbar, rfl⟩
    -- The row taken is on a covered session, and that session has the place of the row asked for.
    have hposition := h.getElem?_sessions (hcalendar.isLawfulOn _) hlocates hbar
    have hplace := getElem?_days h hcalendar hcovers (by omega) (by omega) hposition
    rw [show Day.rank (calendar.sessionsIn start stop) first +
      (offsets.calendarOffset + (skip + (row - base)) - startPosition) = row from by omega,
      hrow] at hplace
    obtain ⟨hmem, hasset⟩ := Store.mem_assetRows.1 (List.mem_of_getElem? hbar)
    exact ⟨bar, hmem, hasset, (Option.some_inj.1 hplace).symm, rfl⟩
  · rintro ⟨bar, hmem, hasset, rfl, rfl⟩
    -- The bar has a place among the rows of its asset, and the slice takes it with its day.
    obtain ⟨k, hbar⟩ := List.mem_iff_getElem?.1 (Store.mem_assetRows.2 ⟨hmem, hasset⟩)
    obtain ⟨hlow, hhigh, hplace⟩ := position_of_mem_days h hcalendar hcovers hlocates hbar hrow
    have hk : k < (store.assetRows asset).length := (List.getElem?_eq_some_iff.1 hbar).1
    refine ⟨by omega, by omega, bar, ?_, rfl⟩
    rw [show skip + (row - base) = k from by omega]
    exact hbar

/-- A day of the range that is stored has a slice. -/
theorem value?_eq_none_of_slice? (h : store.IsContiguous calendar) (hcalendar : calendar.IsLawful)
    (hindex : store.index calendar = .ok index)
    (hcovers : Covers (store.sessions calendar) start stop first last startPosition stopPosition)
    (hslice : index.slice? startPosition stopPosition asset = none)
    (hrow : (calendar.sessionsIn start stop)[row]? = some day) :
    store.value? asset day field = none := by
  refine Store.value?_eq_none fun bar hmem hasset hday ↦ ?_
  rw [← hday] at hrow
  obtain ⟨k, hbar⟩ := List.mem_iff_getElem?.1 (Store.mem_assetRows.2 ⟨hmem, hasset⟩)
  have hk : k < (store.assetRows asset).length := (List.getElem?_eq_some_iff.1 hbar).1
  cases hoffsets : index.get? asset with
  | none =>
    rw [(OffsetIndex.get?_eq_none_iff hindex).1 hoffsets] at hk
    exact Nat.not_lt_zero _ hk
  | some offsets =>
    have hlocates := OffsetIndex.locates_of_get? hindex hoffsets
    have hlength := hlocates.firstRow_add
    obtain ⟨hlow, hhigh, -⟩ := position_of_mem_days h hcalendar hcovers hlocates hbar hrow
    have hsome : index.slice? startPosition stopPosition asset = some _ :=
      OffsetIndex.slice?_eq_some_iff.2 ⟨offsets, hoffsets,
        ⟨by omega, by rw [AssetOffsets.calendarEnd]; omega, by omega⟩, rfl⟩
    rw [hslice] at hsome
    cases hsome

/-! ### Cells -/

theorem getElem?_tapeColumn {height base : Nat} (hrow : row < height) (stored : Array Binary64) :
    (Tape.column field height base stored)[row]? =
      some (if base ≤ row then (stored[row - base]?).elim field.missing field.present
        else field.missing) := by
  rw [Tape.column, List.getElem?_toArray, List.getElem?_map, List.getElem?_range hrow]
  rfl

theorem size_tapeColumn (height base : Nat) (stored : Array Binary64) :
    (Tape.column field height base stored).size = height := by
  rw [Tape.column, List.size_toArray, List.length_map, List.length_range]

/-- All columns of a tape are as high as the range has sessions. -/
theorem size_of_mem_columns {plan : Plan} {stored column : Array Binary64}
    (h : column ∈ (bulkTape plan field stored).columns) : column.size = plan.days.length := by
  obtain ⟨slice, -, rfl⟩ := List.mem_map.1 h
  cases slice with
  | some slice => exact size_tapeColumn _ _ _
  | none => exact size_tapeColumn _ _ _

theorem getElem?_blankColumn {plan : Plan} (hrow : row < plan.days.length) :
    (plan.blankColumn field)[row]? = some field.missing := by
  rw [Plan.blankColumn, getElem?_tapeColumn hrow, if_pos (Nat.zero_le row)]
  rfl

/-- The column of an asset whose rows the range covers. -/
theorem getElem?_planColumn (h : store.IsContiguous calendar) (hcalendar : calendar.IsLawful)
    (hcovers : Covers (store.sessions calendar) start stop first last startPosition stopPosition)
    (hlocates : OffsetIndex.Locates store (store.sessions calendar) asset offsets) {skip : Nat}
    (hnumbers : SliceNumbers store asset offsets startPosition stopPosition slice skip)
    (hrow : (calendar.sessionsIn start stop)[row]? = some day) {plan : Plan}
    (hdays : plan.days = calendar.sessionsIn start stop)
    (hoffset : plan.rowOffset = Day.rank (calendar.sessionsIn start stop) first) :
    (plan.column field slice (store.assetColumn asset field (slice.firstRow - offsets.firstRow)
        slice.extent).toArray)[row]? =
      some ((store.value? asset day field).elim field.missing field.present) := by
  have hlt : row < plan.days.length := by
    rw [hdays]
    exact (List.getElem?_eq_some_iff.1 hrow).1
  have hiff : ∀ value, plan.rowOffset + slice.outputOffset ≤ row ∧
      (store.assetColumn asset field (slice.firstRow - offsets.firstRow)
        slice.extent)[row - (plan.rowOffset + slice.outputOffset)]? = some value ↔
      store.value? asset day field = some value :=
    fun value ↦ slice_value_iff h hcalendar hcovers hlocates hnumbers hrow (by rw [hoffset])
  rw [Plan.column, getElem?_tapeColumn hlt, List.getElem?_toArray]
  refine congrArg some ?_
  cases hvalue : store.value? asset day field with
  | some value =>
    obtain ⟨hbase, hstored⟩ := (hiff value).2 hvalue
    rw [if_pos hbase, hstored]
  | none =>
    split
    · rename_i hbase
      have hstored := Option.eq_none_iff_forall_ne_some.2 fun value hstored ↦
        Option.some_ne_none value (((hiff value).1 ⟨hbase, hstored⟩).symm.trans hvalue)
      rw [hstored]
    · rfl

/-- **A cell is the served value of its asset on its day, or the missing value.** -/
theorem get?_bulkTape (h : store.IsContiguous calendar) (hcalendar : calendar.IsLawful)
    (hindex : store.index calendar = .ok index) {assets : List AssetId} {plan : Plan}
    (hplan : Reader.plan calendar (store.sessions calendar) index start stop assets = .ok plan)
    (hrow : (calendar.sessionsIn start stop)[row]? = some day) {col : Nat}
    (hcol : assets[col]? = some asset) :
    (bulkTape plan field (store.column field).toArray).get? row col =
      some ((store.value? asset day field).elim field.missing field.present) := by
  have hlt : row < (calendar.sessionsIn start stop).length :=
    (List.getElem?_eq_some_iff.1 hrow).1
  have hdays := hcalendar.ascending start stop
  rw [Tape.get?]
  rcases plan_cases calendar (store.sessions calendar) index start stop assets hdays with
    ⟨hnone, heq⟩ | ⟨first, last, startPosition, stopPosition, hcovers, heq⟩
  · obtain rfl := Except.ok.inj (hplan.symm.trans heq)
    have hvalue : store.value? asset day field = none := by
      refine Store.value?_eq_none fun bar hmem _ hday ↦ ?_
      rw [← hday] at hrow
      obtain ⟨hstart, hstop, -⟩ := (hcalendar.mem_iff _ _ _).1 (List.mem_of_getElem? hrow)
      exact hnone bar.day (h.mem_sessions (hcalendar.isLawfulOn _) hmem) ⟨hstart, hstop⟩
    rw [columns_bulkTape rfl, List.getElem?_map, hcol, hvalue]
    exact getElem?_blankColumn hlt
  · obtain rfl := Except.ok.inj (hplan.symm.trans heq)
    rw [columns_bulkTape rfl, List.getElem?_map, hcol, Option.map_some, Option.bind_some]
    cases hslice : index.slice? startPosition stopPosition asset with
    | none =>
      rw [value?_eq_none_of_slice? h hcalendar hindex hcovers hslice hrow]
      exact getElem?_blankColumn hlt
    | some slice =>
      obtain ⟨offsets, hoffsets, -⟩ := OffsetIndex.slice?_eq_some_iff.1 hslice
      have hlocates := OffsetIndex.locates_of_get? hindex hoffsets
      obtain ⟨skip, hnumbers⟩ := exists_sliceNumbers hlocates hoffsets hslice
      dsimp only
      rw [cut_eq_assetColumn (h.nodup_keys (hcalendar.isLawfulOn _)) hlocates hoffsets hslice]
      exact getElem?_planColumn h hcalendar hcovers hlocates hnumbers hrow rfl rfl

end Reader

end DailyBars
