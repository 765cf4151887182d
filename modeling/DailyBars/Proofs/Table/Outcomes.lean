import DailyBars.Proofs.Table.Layout
import DailyBars.Proofs.Table.Order
import Mathlib

/-!
# What becomes of a table

A table becomes bars, or it is refused, and which of the two is a matter of its rows
(`Table.bars_of_rows`). The layout of the table makes no difference, except to what is said of an
index that cannot be used. The bars are one for each row, in the order of their days, with finite
prices, so a writer takes them as a list in order.

Repeated days are looked for last: they are reported **exactly if every column of a bar is there
and converts** (`Table.Converts`) and some day comes twice, and then all such days are listed.
-/

namespace DailyBars

namespace Table

variable {table : Table} {asset : AssetId} {bars : List Bar}

/-- **Bars do not depend on the layout of their table.** -/
theorem Corresponds.sameOutcome {order : List Nat} {other : Table}
    (h : Corresponds order table other) :
    SameOutcome asset (table.bars asset) (other.bars asset) := by
  have hsame : SameOutcome asset ((table.rowBars asset >>= inOrder asset).map id)
      (other.rowBars asset >>= inOrder asset) := by
    refine h.rowBars.bind fun unsorted hunsorted ↦ ?_
    have horder : order.Perm (List.range unsorted.length) := by
      rw [(rowBars_spec hunsorted).1]
      exact h.perm
    rw [Except.map_id, inOrder_of_perm (perm_pick horder)]
    exact .refl _
  rwa [Except.map_id] at hsame

/-! ### Tables that convert -/

/-- Every column of a bar is there and converts, the day column to the days of the rows. -/
structure Converts (table : Table) (asset : AssetId) (found : List Day) : Prop where
  days : ∃ column, table.dayColumn? = some column ∧ Table.days asset column.data = .ok found
  prices : ∀ field : Field, field.isPrice = true → ∃ column,
    table.find? field.name = some column ∧ (column.data.convert? .double).isSome = true
  volumes : ∃ column,
    table.find? Field.volume.name = some column ∧ (column.data.convert? .int64).isSome = true

theorem Converts.eq {found others : List Day} (h : table.Converts asset found)
    (hothers : table.Converts asset others) : found = others := by
  obtain ⟨column, hcolumn, hfound⟩ := h.days
  obtain ⟨second, hsecond, hother⟩ := hothers.days
  obtain rfl := Option.some_inj.1 (hcolumn.symm.trans hsecond)
  exact Except.ok.inj (hfound.symm.trans hother)

section

variable {field : Field} {α β : Type} {conversion : Conversion α} {keep : Option α → β}

/-- A field has values exactly if its column is there and converts. -/
theorem exists_map_fieldEntries_iff :
    (∃ values, ((table.fieldEntries asset field conversion).map fun entries ↦ entries.map keep) =
        .ok values) ↔
      ∃ column, table.find? field.name = some column ∧
        (column.data.convert? conversion).isSome = true := by
  constructor
  · rintro ⟨values, h⟩
    obtain ⟨entries, hentries, -⟩ := Result.map_eq_ok_iff.1 h
    obtain ⟨column, hfind, hconvert⟩ := fieldEntries_eq_ok_iff.1 hentries
    exact ⟨column, hfind, hconvert ▸ rfl⟩
  · rintro ⟨column, hfind, hsome⟩
    obtain ⟨entries, hconvert⟩ := Option.isSome_iff_exists.1 hsome
    exact ⟨_, Result.map_eq_ok_iff.2
      ⟨entries, fieldEntries_eq_ok_iff.2 ⟨column, hfind, hconvert⟩, rfl⟩⟩

/-- A field without values is reported as corrupted. -/
theorem exists_names_of_fieldEntries {error : StoreError}
    (h : ((table.fieldEntries asset field conversion).map fun entries ↦ entries.map keep) =
      .error error) :
    ∃ names, error = .corruptedData asset names := by
  obtain h := Result.map_eq_error_iff.1 h
  obtain h | ⟨column, -, h⟩ := Result.bind_eq_error_iff.1 h
  · rw [fieldColumn] at h
    split at h
    · cases h
    · cases h
      exact ⟨_, rfl⟩
  · split at h
    · cases h
    · cases h
      exact ⟨_, rfl⟩

end

theorem Converts.missingColumns {found : List Day} (h : table.Converts asset found) :
    table.missingColumns = [] := by
  obtain ⟨column, hcolumn, -⟩ := h.days
  have hfields : (Field.all.map Field.name).filter (fun name ↦ (table.find? name).isNone) = [] := by
    refine List.filter_eq_nil_iff.2 fun name hname ↦ ?_
    obtain ⟨field, -, rfl⟩ := List.mem_map.1 hname
    obtain ⟨found, hfound⟩ : ∃ found, table.find? field.name = some found := by
      cases hprice : field.isPrice with
      | true =>
        obtain ⟨found, hfound, -⟩ := h.prices field hprice
        exact ⟨found, hfound⟩
      | false =>
        obtain rfl : field = .volume := by simpa [Field.isPrice] using hprice
        obtain ⟨found, hfound, -⟩ := h.volumes
        exact ⟨found, hfound⟩
    simp [hfound]
  rw [Table.missingColumns, hcolumn, hfields]
  rfl

/-- The day of a bar is the one of its row. -/
theorem HasColumns.map_day {columns : Columns} (h : table.HasColumns asset columns) :
    (columns.rowBars asset).map Bar.day = columns.days := by
  obtain ⟨column, hcolumn, hfound⟩ := h.days
  have hlast := length_zip_of_eq (prices_spec h.closePrices).1 (volumes_spec h.volumes).1
  have hlater := length_zip_of_eq (prices_spec h.lowPrices).1 hlast
  have hprices := length_zip_of_eq (prices_spec h.highPrices).1 hlater
  have hvalues := length_zip_of_eq (prices_spec h.openPrices).1 hprices
  have hday := (length_days hfound).trans (height_of_dayColumn? hcolumn)
  rw [Columns.rowBars, List.map_map]
  exact List.map_fst_zip (by omega)

theorem converts_of_rowBars {unsorted : List Bar} (h : table.rowBars asset = .ok unsorted) :
    table.Converts asset (unsorted.map Bar.day) := by
  obtain ⟨columns, hcolumns, rfl⟩ := rowBars_eq_ok_iff.1 h
  have hprices : ∀ field : Field, field.isPrice = true →
      ∃ values, table.prices asset field = .ok values :=
    Field.forall_isPrice_iff.2 ⟨⟨_, hcolumns.openPrices⟩, ⟨_, hcolumns.highPrices⟩,
      ⟨_, hcolumns.lowPrices⟩, ⟨_, hcolumns.closePrices⟩⟩
  rw [hcolumns.map_day]
  refine ⟨hcolumns.days, fun field hprice ↦ ?_, ?_⟩
  · exact exists_map_fieldEntries_iff.1 (hprices field hprice)
  · exact exists_map_fieldEntries_iff.1 ⟨_, hcolumns.volumes⟩

theorem Converts.exists_rowBars {found : List Day} (h : table.Converts asset found) :
    ∃ unsorted, table.rowBars asset = .ok unsorted ∧ unsorted.map Bar.day = found := by
  have hprices : ∀ field : Field, field.isPrice = true →
      ∃ values, table.prices asset field = .ok values := fun field hprice ↦
    exists_map_fieldEntries_iff.2 (h.prices field hprice)
  obtain ⟨⟨opens, hopens⟩, ⟨highs, hhighs⟩, ⟨lows, hlows⟩, closes, hcloses⟩ :=
    Field.forall_isPrice_iff.1 hprices
  obtain ⟨volumes, hvolumes⟩ : ∃ values, table.volumes asset = .ok values :=
    exists_map_fieldEntries_iff.2 h.volumes
  have hcolumns : table.HasColumns asset ⟨found, opens, highs, lows, closes, volumes⟩ :=
    ⟨h.missingColumns, h.days, hopens, hhighs, hlows, hcloses, hvolumes⟩
  exact ⟨_, rowBars_eq_ok_iff.2 ⟨_, hcolumns, rfl⟩, hcolumns.map_day⟩

theorem exists_of_rowBars_eq_error {error : StoreError} (h : table.rowBars asset = .error error) :
    (∃ names, error = .corruptedData asset names) ∨
      ∃ reason, error = .unsupportedIndex asset reason := by
  rw [rowBars] at h
  dsimp only at h
  split at h
  · cases h
    exact .inl ⟨_, rfl⟩
  cases hcolumn : table.dayColumn? with
  | none =>
    rw [hcolumn] at h
    cases h
    exact .inl ⟨_, rfl⟩
  | some column =>
    rw [hcolumn] at h
    obtain h | ⟨found, -, h⟩ := Result.bind_eq_error_iff.1 h
    · exact .inr (exists_fault_of_days h)
    obtain h | ⟨opens, -, h⟩ := Result.bind_eq_error_iff.1 h
    · exact .inl (exists_names_of_fieldEntries h)
    obtain h | ⟨highs, -, h⟩ := Result.bind_eq_error_iff.1 h
    · exact .inl (exists_names_of_fieldEntries h)
    obtain h | ⟨lows, -, h⟩ := Result.bind_eq_error_iff.1 h
    · exact .inl (exists_names_of_fieldEntries h)
    obtain h | ⟨closes, -, h⟩ := Result.bind_eq_error_iff.1 h
    · exact .inl (exists_names_of_fieldEntries h)
    obtain h | ⟨volumes, -, h⟩ := Result.bind_eq_error_iff.1 h
    · exact .inl (exists_names_of_fieldEntries h)
    · cases h

/-- **The repeated days of a table are reported exactly if all else is right with it.** -/
theorem bars_eq_duplicateDays_iff {culprit : AssetId} {repeated : List Day} :
    table.bars asset = .error (.duplicateDays culprit repeated) ↔ culprit = asset ∧
      ∃ found, table.Converts asset found ∧ repeated ≠ [] ∧ ListsRepeated repeated found := by
  rw [bars_eq, Result.bind_eq_error_iff]
  constructor
  · rintro (h | ⟨unsorted, hunsorted, h⟩)
    · obtain ⟨_, ⟨⟩⟩ | ⟨_, ⟨⟩⟩ := exists_of_rowBars_eq_error h
    · obtain ⟨others, heq, hne, hlists⟩ := inOrder_eq_error_iff.1 h
      obtain ⟨rfl, rfl⟩ := StoreError.duplicateDays.inj heq
      exact ⟨rfl, _, converts_of_rowBars hunsorted, hne, hlists⟩
  · rintro ⟨rfl, found, hconverts, hne, hlists⟩
    obtain ⟨unsorted, hunsorted, rfl⟩ := hconverts.exists_rowBars
    exact .inr ⟨unsorted, hunsorted, inOrder_eq_error_iff.2 ⟨repeated, rfl, hne, hlists⟩⟩

/-- A day comes twice exactly if there is one to list. -/
theorem exists_listsRepeated_iff {days : List Day} :
    (∃ repeated, repeated ≠ [] ∧ ListsRepeated repeated days) ↔ ∃ day, 2 ≤ days.count day := by
  constructor
  · rintro ⟨repeated, hne, hlists⟩
    obtain ⟨day, hday⟩ := List.exists_mem_of_ne_nil repeated hne
    exact ⟨day, (hlists.mem_iff day).1 hday⟩
  · rintro ⟨day, hday⟩
    obtain ⟨list, hlist⟩ : ∃ list, list = DayList.ofList (days.filter (2 ≤ days.count ·)) :=
      ⟨_, rfl⟩
    have hmem : ∀ day, day ∈ list.toList ↔ 2 ≤ days.count day := by
      intro day
      rw [hlist, DayList.mem_ofList, List.mem_filter, decide_eq_true_eq, and_iff_right_iff_imp]
      exact fun htwice ↦ List.count_pos_iff.1 (by omega)
    exact ⟨list.toList, List.ne_nil_of_mem ((hmem day).2 hday), list.ascending, hmem⟩

/-- A table becomes bars exactly if it converts and no day comes twice. -/
theorem exists_bars_iff :
    (∃ bars, table.bars asset = .ok bars) ↔ ∃ found, table.Converts asset found ∧ found.Nodup := by
  rw [bars_eq]
  simp only [Result.bind_eq_ok_iff, inOrder_eq_ok_iff]
  constructor
  · rintro ⟨bars, unsorted, hunsorted, hperm, hascending⟩
    exact ⟨_, converts_of_rowBars hunsorted,
      (hperm.map Bar.day).nodup_iff.1 hascending.nodup⟩
  · rintro ⟨found, hconverts, hnodup⟩
    obtain ⟨unsorted, hunsorted, rfl⟩ := hconverts.exists_rowBars
    obtain ⟨bars, -, hbars⟩ | ⟨repeated, -, hne, hlists⟩ := inOrder_cases asset unsorted
    · exact ⟨bars, unsorted, hunsorted, hbars⟩
    · exact absurd (hlists.eq_nil hnodup) hne

/-- The bars of a table: one for each row, in order, with prices that can be stored. -/
structure AreBars (table : Table) (asset : AssetId) (bars : List Bar) : Prop where
  exists_rows : ∃ rows : List Bar, bars.Perm rows ∧ rows.length = table.height ∧
    ∀ row bar, rows[row]? = some bar → table.IsRow asset row bar
  asset_eq : ∀ bar ∈ bars, bar.asset = asset
  ascending : (bars.map Bar.day).Pairwise (· < ·)
  isFinite : ∀ bar ∈ bars, ∀ price ∈ bar.prices, price.isFinite = true
  sequenceFault? : Writer.sequenceFault? asset bars = none

theorem areBars_of_bars (h : table.bars asset = .ok bars) : table.AreBars asset bars := by
  obtain ⟨rows, hrows, h⟩ := Result.bind_eq_ok_iff.1 (bars_eq table asset ▸ h)
  obtain ⟨hperm, hascending⟩ := inOrder_eq_ok_iff.1 h
  obtain ⟨hlength, hspec⟩ := rowBars_spec hrows
  have hisRow : ∀ bar ∈ bars, ∃ row, table.IsRow asset row bar := by
    intro bar hbar
    obtain ⟨row, hrow⟩ := List.mem_iff_getElem?.1 (hperm.mem_iff.1 hbar)
    exact ⟨row, hspec row bar hrow⟩
  have hasset : ∀ bar ∈ bars, bar.asset = asset := by
    intro bar hbar
    obtain ⟨row, hrow⟩ := hisRow bar hbar
    exact hrow.asset_eq
  refine ⟨⟨rows, hperm, hlength, hspec⟩, hasset, hascending, fun bar hbar price hprice ↦ ?_,
    Writer.sequenceFault?_eq_none_iff.2 ⟨hasset, hascending⟩⟩
  obtain ⟨row, hrow⟩ := hisRow bar hbar
  exact hrow.isFinite hprice

theorem sameOutcome_of_eqvGen {other : Table} (h : Relation.EqvGen Rearranges table other) :
    SameOutcome asset (table.bars asset) (other.bars asset) := by
  induction h with
  | rel table other hstep =>
    obtain ⟨order, horder⟩ := hstep.exists_corresponds
    exact horder.sameOutcome
  | refl table => exact .refl _
  | symm table other _ ih => exact ih.symm
  | trans table middle other _ _ ih ih' => exact ih.trans ih'

/-- **What becomes of a table is a matter of its rows.** -/
theorem bars_of_rows (table : Table) (asset : AssetId) :
    (∀ other, Relation.EqvGen Rearranges table other →
      SameOutcome asset (table.bars asset) (other.bars asset)) ∧
    (∀ bars, table.bars asset = .ok bars → table.AreBars asset bars) ∧
    ((∃ culprit repeated, table.bars asset = .error (.duplicateDays culprit repeated)) ↔
      ∃ found, table.Converts asset found ∧ ∃ day, 2 ≤ found.count day) ∧
    ∀ culprit repeated, table.bars asset = .error (.duplicateDays culprit repeated) →
      culprit = asset ∧ ∃ found, table.Converts asset found ∧ ListsRepeated repeated found := by
  refine ⟨fun other ↦ sameOutcome_of_eqvGen, fun bars ↦ areBars_of_bars, ?_, ?_⟩
  · simp only [bars_eq_duplicateDays_iff]
    constructor
    · rintro ⟨culprit, repeated, -, found, hconverts, hrepeated⟩
      exact ⟨found, hconverts, exists_listsRepeated_iff.1 ⟨repeated, hrepeated⟩⟩
    · rintro ⟨found, hconverts, hday⟩
      obtain ⟨repeated, hrepeated⟩ := exists_listsRepeated_iff.2 hday
      exact ⟨asset, repeated, rfl, found, hconverts, hrepeated⟩
  · intro culprit repeated h
    obtain ⟨hculprit, found, hconverts, -, hlists⟩ := bars_eq_duplicateDays_iff.1 h
    exact ⟨hculprit, found, hconverts, hlists⟩

/-- Names that are told apart are names of different columns. -/
theorem hasClearNames_of_names (h : ∀ name ∈ acceptedNames, ∀ a ∈ table.columns.map Column.name,
    ∀ b ∈ table.columns.map Column.name, Text.sameLetters a name = true →
      Text.sameLetters b name = true → a = b) : table.HasClearNames := by
  intro name hname a ha b hb hsame hother
  refine List.inj_on_of_nodup_map table.distinctNames ha hb ?_
  exact h name hname _ (List.mem_map_of_mem ha) _ (List.mem_map_of_mem hb) hsame hother

namespace Sample

/-- Two rows, the later day first. -/
def upright : Table where
  columns := [⟨"Date", .date [some 95026236, some 0]⟩, ⟨"OPEN", .whole .int64 [some 5, none]⟩,
    ⟨"high", .untyped 2⟩, ⟨"low", .truth [some true, some false]⟩,
    ⟨"close", .real .double [some .infinity, some .nan]⟩, ⟨"volume", .whole .int32 [some 9, none]⟩]
  height := 2
  isRectangular := by decide
  distinctNames := by decide

/-- The same table with its rows and its columns turned round. -/
def turned : Table where
  columns := (upright.columns.map (reorderColumn [1, 0])).reverse
  height := 2
  isRectangular := by decide
  distinctNames := by decide

/-- The turned table with a note. -/
def noted : Table where
  columns := ⟨"note", .text [none, some "split"]⟩ :: turned.columns
  height := 2
  isRectangular := by decide
  distinctNames := by decide

/-- Three rows of two days. -/
def twice : Table where
  columns := [⟨"day", .date [some 95026236, some 0, some 95026236]⟩, ⟨"open", .untyped 3⟩,
    ⟨"high", .untyped 3⟩, ⟨"low", .untyped 3⟩, ⟨"close", .untyped 3⟩, ⟨"volume", .untyped 3⟩]
  height := 3
  isRectangular := by decide
  distinctNames := by decide

theorem eqvGen_noted : Relation.EqvGen Rearranges upright noted := by
  have hturned : Rearranges (upright.reorder [1, 0] (by decide)) turned :=
    .columns (hasClearNames_of_names (by decide +kernel)) (List.reverse_perm _)
  have hnoted : Rearranges turned noted := .foreign (by cbv)
  exact .trans _ _ _ (.rel _ _ (.rows upright [1, 0] (by decide)))
    (.trans _ _ _ (.rel _ _ hturned) (.rel _ _ hnoted))

theorem converts_upright : upright.Converts ⟨7⟩ [Day.greatest, Day.epoch] where
  days := ⟨⟨"Date", .date [some 95026236, some 0]⟩, by cbv, rfl⟩
  prices := Field.forall_isPrice_iff.2 ⟨⟨_, rfl, rfl⟩, ⟨_, rfl, rfl⟩, ⟨_, rfl, rfl⟩, ⟨_, rfl, rfl⟩⟩
  volumes := ⟨_, rfl, rfl⟩

theorem converts_twice : twice.Converts ⟨7⟩ [Day.greatest, Day.epoch, Day.greatest] where
  days := ⟨_, rfl, rfl⟩
  prices := Field.forall_isPrice_iff.2 ⟨⟨_, rfl, rfl⟩, ⟨_, rfl, rfl⟩, ⟨_, rfl, rfl⟩, ⟨_, rfl, rfl⟩⟩
  volumes := ⟨_, rfl, rfl⟩

theorem listsRepeated_greatest :
    ListsRepeated [Day.greatest] [Day.greatest, Day.epoch, Day.greatest] where
  ascending := List.pairwise_singleton _ _
  mem_iff day := by
    have hne : Day.greatest ≠ Day.epoch := by decide
    by_cases hgreatest : day = Day.greatest
    · subst hgreatest
      decide
    · have hcount : [Day.greatest, Day.epoch, Day.greatest].count day ≤ 1 := by
        rw [List.count_cons_of_ne (Ne.symm hgreatest)]
        have hlast : [Day.greatest].count day = 0 := by
          rw [List.count_cons_of_ne (Ne.symm hgreatest), List.count_nil]
        rw [List.count_cons, hlast]
        split <;> decide
      exact iff_of_false (by simpa using hgreatest) (by omega)

end Sample

theorem bars_of_turned_rows :
    (∃ bars, Sample.upright.bars ⟨7⟩ = .ok bars ∧ Sample.noted.bars ⟨7⟩ = .ok bars ∧
      bars.length = 2) ∧
    Sample.twice.bars ⟨7⟩ = .error (.duplicateDays ⟨7⟩ [Day.greatest]) := by
  constructor
  · obtain ⟨hsame, hbars, -⟩ := bars_of_rows Sample.upright ⟨7⟩
    obtain ⟨bars, hok⟩ := exists_bars_iff.2 ⟨_, Sample.converts_upright, by decide⟩
    have houtcome := hsame _ Sample.eqvGen_noted
    obtain ⟨rows, hperm, hlength, -⟩ := (hbars bars hok).exists_rows
    refine ⟨bars, hok, ?_, hperm.length_eq.trans hlength⟩
    rw [hok] at houtcome
    generalize Sample.noted.bars ⟨7⟩ = outcome at houtcome ⊢
    cases houtcome
    rfl
  · obtain ⟨-, -, hreturned, hlisted⟩ := bars_of_rows Sample.twice ⟨7⟩
    obtain ⟨culprit, repeated, h⟩ :=
      hreturned.2 ⟨_, Sample.converts_twice, Day.greatest, by decide⟩
    obtain ⟨rfl, found, hconverts, hlists⟩ := hlisted culprit repeated h
    obtain rfl := hconverts.eq Sample.converts_twice
    rw [h, hlists.eq Sample.listsRepeated_greatest]

end Table

end DailyBars
