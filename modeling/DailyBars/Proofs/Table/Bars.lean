import DailyBars.Proofs.Result
import DailyBars.Table.Bars
import Mathlib

/-!
# Rows of a table and its bars

A table that becomes bars has one bar for each row, with the day, the prices and the volume of that
row (`Table.exists_isRow`). The columns are converted one by one and put together by position, so
**what ties a price to its day is that every column keeps its height**
(`ColumnData.length_convert?`, `Table.length_days`): no conversion leaves an entry out, a missing one
stays where it is.

The bars are sorted by day afterwards, which moves whole bars only.
-/

namespace DailyBars

theorem Field.forall_isPrice_iff {p : Field → Prop} : (∀ field : Field, field.isPrice = true →
    p field) ↔ p .openPrice ∧ p .highPrice ∧ p .lowPrice ∧ p .closePrice := by
  constructor
  · intro h
    exact ⟨h _ rfl, h _ rfl, h _ rfl, h _ rfl⟩
  · rintro ⟨hopen, hhigh, hlow, hclose⟩ field hprice
    cases field with
    | openPrice => exact hopen
    | highPrice => exact hhigh
    | lowPrice => exact hlow
    | closePrice => exact hclose
    | volume => cases hprice

namespace ColumnData

/-- **A converted column is as high as the column that it was.** -/
theorem length_convert? {α : Type} {conversion : Conversion α} {data : ColumnData}
    {values : List (Option α)} (h : data.convert? conversion = some values) :
    values.length = data.height := by
  cases data with
  | untyped height =>
    cases h
    exact List.length_replicate
  | text entries => exact Result.length_of_mapM_option h
  | truth entries => exact Result.length_of_mapM_option h
  | real type entries => exact Result.length_of_mapM_option h
  | whole type entries => exact Result.length_of_mapM_option h
  | date entries => exact Result.length_of_mapM_option h
  | instant unit entries => exact Result.length_of_mapM_option h

end ColumnData

namespace Table

variable {table : Table} {asset : AssetId} {field : Field} {bars : List Bar} {row : Nat}

theorem height_of_find? {name : String} {column : Column} (h : table.find? name = some column) :
    column.data.height = table.height :=
  table.isRectangular column (List.mem_of_find?_eq_some h)

theorem height_of_dayColumn? {column : Column} (h : table.dayColumn? = some column) :
    column.data.height = table.height := by
  obtain ⟨name, -, hname⟩ := List.exists_of_findSome?_eq_some h
  exact height_of_find? hname

/-! ### The entries of a row -/

/-- The day of a row. -/
def dayAt? (table : Table) (asset : AssetId) (row : Nat) : Option Day :=
  table.dayColumn?.bind fun column ↦ (days asset column.data).toOption.bind fun days ↦ days[row]?

/-- The entry of a field in a row, converted; it may be missing. -/
def entryAt? {α : Type} (table : Table) (conversion : Conversion α) (field : Field) (row : Nat) :
    Option (Option α) :=
  (table.find? field.name).bind fun column ↦
    (column.data.convert? conversion).bind fun entries ↦ entries[row]?

/-- The entry of a field in a row as a double. -/
def priceAt? (table : Table) (field : Field) (row : Nat) : Option (Option Binary64) :=
  table.entryAt? .double field row

/-- The volume of a row as an integer. -/
def volumeAt? (table : Table) (row : Nat) : Option (Option Int64) :=
  table.entryAt? .int64 .volume row

theorem length_days {data : ColumnData} {found : List Day} (h : days asset data = .ok found) :
    found.length = data.height := by
  have hread : ∀ {α : Type} {fault : α → IndexFault} {read : α → Option Day}
      {entries : List (Option α)}, readDays asset fault read entries = .ok found →
      found.length = entries.length := by
    intro α fault read entries h
    rw [readDays] at h
    rw [Result.length_of_mapM h, List.length_zipIdx]
  cases data with
  | date entries => exact hread h
  | instant unit entries => exact hread h
  | text entries => exact hread h
  | truth entries => cases h
  | real type entries => cases h
  | whole type entries => cases h
  | untyped height => cases h

theorem fieldColumn_eq_ok {column : Column} (h : table.fieldColumn asset field = .ok column) :
    table.find? field.name = some column := by
  rw [fieldColumn] at h
  split at h
  · cases h
    assumption
  · cases h

theorem fieldEntries_eq_ok_iff {α : Type} {conversion : Conversion α} {entries : List (Option α)} :
    table.fieldEntries asset field conversion = .ok entries ↔
      ∃ column, table.find? field.name = some column ∧
        column.data.convert? conversion = some entries := by
  rw [fieldEntries, Result.bind_eq_ok_iff]
  constructor
  · rintro ⟨column, hcolumn, h⟩
    refine ⟨column, fieldColumn_eq_ok hcolumn, ?_⟩
    split at h
    · cases h
      assumption
    · cases h
  · rintro ⟨column, hfind, hentries⟩
    refine ⟨column, ?_, ?_⟩
    · rw [fieldColumn, hfind]
    · rw [hentries]
      rfl

/-- What is kept of each entry of a field is as high as the table, and is kept of the entry that
stands in its row. -/
theorem fieldEntries_spec {α β : Type} {conversion : Conversion α} {keep : Option α → β}
    {values : List β}
    (h : ((table.fieldEntries asset field conversion).map fun entries ↦ entries.map keep) =
      .ok values) :
    values.length = table.height ∧ ∀ (row : Nat) value, values[row]? = some value →
      ∃ entry, table.entryAt? conversion field row = some entry ∧ value = keep entry := by
  obtain ⟨entries, hentries, rfl⟩ := Result.map_eq_ok_iff.1 h
  obtain ⟨column, hfind, hconvert⟩ := fieldEntries_eq_ok_iff.1 hentries
  refine ⟨?_, fun row value hrow ↦ ?_⟩
  · rw [List.length_map, ColumnData.length_convert? hconvert, height_of_find? hfind]
  · rw [List.getElem?_map] at hrow
    obtain ⟨entry, hentry, rfl⟩ := Option.map_eq_some_iff.1 hrow
    refine ⟨entry, ?_, rfl⟩
    rw [entryAt?, hfind, Option.bind_some, hconvert, Option.bind_some, hentry]

/-- The prices of a field are what the rows say, as they are kept. -/
theorem prices_spec {values : List Binary64} (h : table.prices asset field = .ok values) :
    values.length = table.height ∧ ∀ (row : Nat) price, values[row]? = some price →
      ∃ entry, table.priceAt? field row = some entry ∧ price = keptPrice entry :=
  fieldEntries_spec h

/-- The volumes are what the rows say; a missing one is zero. -/
theorem volumes_spec {values : List Int64} (h : table.volumes asset = .ok values) :
    values.length = table.height ∧ ∀ (row : Nat) volume, values[row]? = some volume →
      ∃ entry, table.volumeAt? row = some entry ∧ volume = entry.getD 0 :=
  fieldEntries_spec h

/-! ### The bar of a row -/

/-- The bar says what a row says. -/
structure IsRow (table : Table) (asset : AssetId) (row : Nat) (bar : Bar) : Prop where
  asset_eq : bar.asset = asset
  day : table.dayAt? asset row = some bar.day
  price : ∀ field, field.isPrice = true →
    ∃ entry, table.priceAt? field row = some entry ∧ bar.value field = keptPrice entry
  volume : ∃ entry, table.volumeAt? row = some entry ∧ bar.volume = entry.getD 0

/-- The columns of the bars after their conversion. -/
structure Columns where
  days : List Day
  openPrices : List Binary64
  highPrices : List Binary64
  lowPrices : List Binary64
  closePrices : List Binary64
  volumes : List Int64

/-- The columns put together by position. -/
def Columns.rowBars (columns : Columns) (asset : AssetId) : List Bar :=
  (columns.days.zip (columns.openPrices.zip (columns.highPrices.zip (columns.lowPrices.zip
    (columns.closePrices.zip columns.volumes))))).map
    fun (day, openPrice, highPrice, lowPrice, closePrice, volume) ↦
      ⟨asset, day, openPrice, highPrice, lowPrice, closePrice, volume⟩

/-- Every column of a bar is there and converts to one of these. -/
structure HasColumns (table : Table) (asset : AssetId) (columns : Columns) : Prop where
  missingColumns : table.missingColumns = []
  days : ∃ column, table.dayColumn? = some column ∧
    Table.days asset column.data = .ok columns.days
  openPrices : table.prices asset .openPrice = .ok columns.openPrices
  highPrices : table.prices asset .highPrice = .ok columns.highPrices
  lowPrices : table.prices asset .lowPrice = .ok columns.lowPrices
  closePrices : table.prices asset .closePrice = .ok columns.closePrices
  volumes : table.volumes asset = .ok columns.volumes

/-- **The bars of the rows are made of all columns or not at all.** -/
theorem rowBars_eq_ok_iff : table.rowBars asset = .ok bars ↔
    ∃ columns, table.HasColumns asset columns ∧ columns.rowBars asset = bars := by
  constructor
  · intro h
    rw [rowBars] at h
    dsimp only at h
    split at h
    · cases h
    rename_i hmissing
    cases hcolumn : table.dayColumn? with
    | none =>
      rw [hcolumn] at h
      cases h
    | some column =>
      rw [hcolumn] at h
      obtain ⟨found, hfound, h⟩ := Result.bind_eq_ok_iff.1 h
      obtain ⟨opens, hopens, h⟩ := Result.bind_eq_ok_iff.1 h
      obtain ⟨highs, hhighs, h⟩ := Result.bind_eq_ok_iff.1 h
      obtain ⟨lows, hlows, h⟩ := Result.bind_eq_ok_iff.1 h
      obtain ⟨closes, hcloses, h⟩ := Result.bind_eq_ok_iff.1 h
      obtain ⟨volumes, hvolumes, h⟩ := Result.bind_eq_ok_iff.1 h
      cases h
      exact ⟨⟨found, opens, highs, lows, closes, volumes⟩, ⟨by simpa using hmissing,
        ⟨column, hcolumn, hfound⟩, hopens, hhighs, hlows, hcloses, hvolumes⟩, rfl⟩
  · rintro ⟨columns, h, rfl⟩
    obtain ⟨column, hcolumn, hfound⟩ := h.days
    rw [rowBars, h.missingColumns, hcolumn]
    show Table.days asset column.data >>= _ = .ok _
    simp only [Result.bind_eq_ok_iff]
    exact ⟨_, hfound, _, h.openPrices, _, h.highPrices, _, h.lowPrices, _, h.closePrices, _,
      h.volumes, rfl⟩

/-- **Bars are put together row by row**, one for each row. -/
theorem rowBars_spec (h : table.rowBars asset = .ok bars) :
    bars.length = table.height ∧ ∀ row bar, bars[row]? = some bar → table.IsRow asset row bar := by
  obtain ⟨columns, hcolumns, rfl⟩ := rowBars_eq_ok_iff.1 h
  obtain ⟨column, hcolumn, hfound⟩ := hcolumns.days
  obtain ⟨hopenLength, hopen⟩ := prices_spec hcolumns.openPrices
  obtain ⟨hhighLength, hhigh⟩ := prices_spec hcolumns.highPrices
  obtain ⟨hlowLength, hlow⟩ := prices_spec hcolumns.lowPrices
  obtain ⟨hcloseLength, hclose⟩ := prices_spec hcolumns.closePrices
  obtain ⟨hvolumeLength, hvolume⟩ := volumes_spec hcolumns.volumes
  have hdayLength := (length_days hfound).trans (height_of_dayColumn? hcolumn)
  rw [Columns.rowBars]
  refine ⟨?_, fun row bar hrow ↦ ?_⟩
  · simp [hdayLength, hopenLength, hhighLength, hlowLength, hcloseLength, hvolumeLength]
  · rw [List.getElem?_map] at hrow
    obtain ⟨⟨day, openPrice, highPrice, lowPrice, closePrice, volume⟩, hzip, rfl⟩ :=
      Option.map_eq_some_iff.1 hrow
    simp only [List.getElem?_zip_eq_some] at hzip
    obtain ⟨hday, ho, hh, hl, hc, hv⟩ := hzip
    constructor
    · rfl
    · rw [dayAt?, hcolumn, Option.bind_some, hfound]
      exact hday
    · exact Field.forall_isPrice_iff.2
        ⟨hopen row _ ho, hhigh row _ hh, hlow row _ hl, hclose row _ hc⟩
    · exact hvolume row _ hv

theorem perm_rowBars (h : table.bars asset = .ok bars) :
    ∃ unsorted, table.rowBars asset = .ok unsorted ∧ bars.Perm unsorted := by
  obtain ⟨unsorted, hunsorted, h⟩ := Result.bind_eq_ok_iff.1 h
  refine ⟨unsorted, hunsorted, ?_⟩
  dsimp only at h
  split at h
  · cases h
  · cases h
    exact List.mergeSort_perm _ _

theorem length_bars (h : table.bars asset = .ok bars) : bars.length = table.height := by
  obtain ⟨unsorted, hunsorted, hperm⟩ := perm_rowBars h
  rw [hperm.length_eq, (rowBars_spec hunsorted).1]

/-- **Every row has its bar.** -/
theorem exists_isRow (h : table.bars asset = .ok bars) (hrow : row < table.height) :
    ∃ bar ∈ bars, table.IsRow asset row bar := by
  obtain ⟨unsorted, hunsorted, hperm⟩ := perm_rowBars h
  obtain ⟨hlength, hrows⟩ := rowBars_spec hunsorted
  have hlt : row < unsorted.length := by omega
  exact ⟨unsorted[row], hperm.mem_iff.2 (List.getElem_mem hlt),
    hrows row _ (List.getElem?_eq_getElem hlt)⟩

/-! ### Prices as they are kept -/

theorem isFinite_keptPrice (entry : Option Binary64) : (keptPrice entry).isFinite = true := by
  cases entry with
  | none => decide
  | some price =>
    rw [keptPrice]
    split
    · assumption
    · decide

/-- All prices of the bar of a row are kept of entries. -/
theorem IsRow.isFinite {bar : Bar} (h : table.IsRow asset row bar) {price : Binary64}
    (hprice : price ∈ bar.prices) : price.isFinite = true := by
  have hfields : ∀ field : Field, field.isPrice = true → (bar.value field).isFinite = true := by
    intro field hfield
    obtain ⟨entry, -, hkept⟩ := h.price field hfield
    rw [hkept, isFinite_keptPrice]
  obtain ⟨hopen, hhigh, hlow, hclose⟩ := Field.forall_isPrice_iff.1 hfields
  simp only [Bar.prices, List.mem_cons, List.not_mem_nil, or_false] at hprice
  rcases hprice with rfl | rfl | rfl | rfl <;> assumption

theorem IsRow.hasNaN {bar : Bar} (h : table.IsRow asset row bar) : bar.hasNaN = false := by
  refine List.any_eq_false.2 fun price hprice ↦ ?_
  have hfinite := h.isFinite hprice
  simp only [Binary64.isFinite, decide_eq_true_eq] at hfinite
  rw [Bool.not_eq_true, Binary64.isNaN, decide_eq_false_iff_not]
  omega

/-- **All prices of the bars of a table are numbers**, so that no store refuses them. -/
theorem hasNaN_of_mem_bars (h : table.bars asset = .ok bars) {bar : Bar} (hbar : bar ∈ bars) :
    bar.hasNaN = false := by
  obtain ⟨unsorted, hunsorted, hperm⟩ := perm_rowBars h
  obtain ⟨row, hrow⟩ := List.mem_iff_getElem?.1 (hperm.mem_iff.1 hbar)
  exact ((rowBars_spec hunsorted).2 row bar hrow).hasNaN

/-! ### Prices as they are served -/

/-- An entry of a price as it is served: not a number unless it is a finite number other than
zero. -/
def servedPrice : Option Binary64 → Binary64
  | some price => if price.isFinite && !price.isZero then price else .nan
  | none => .nan

/-- **What is kept of a price is enough to serve it.** -/
theorem present_keptPrice (hprice : field.isPrice = true) (entry : Option Binary64) :
    field.present (keptPrice entry).dropZeroSign = servedPrice entry := by
  have hzero : Binary64.zero.dropZeroSign = .zero ∧ Binary64.zero.isZero = true := by decide
  rw [Field.present, hprice, Bool.true_and]
  cases entry with
  | none =>
    rw [keptPrice, hzero.1, if_pos hzero.2]
    rfl
  | some price =>
    rw [keptPrice, servedPrice]
    cases hfinite : price.isFinite with
    | false =>
      rw [if_neg Bool.false_ne_true, hzero.1, if_pos hzero.2]
      rfl
    | true =>
      rw [if_pos rfl, Binary64.dropZeroSign]
      cases hisZero : price.isZero with
      | true =>
        rw [if_pos rfl, if_pos hzero.2]
        rfl
      | false =>
        rw [if_neg Bool.false_ne_true, hisZero]
        rfl

end Table

end DailyBars
