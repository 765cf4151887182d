import DailyBars.Proofs.Dataset.Additions
import DailyBars.Proofs.Dataset.Tapes
import DailyBars.Proofs.Writer.Reports
import Mathlib

/-!
# Ingested values

A table of which all rows are reported as written can be read back for good: the value of its asset
on the day of a row is what the row says, after any later calls of writers and readers. A price is
served as it was converted, or as NaN where the row says nothing that a price can be; a volume as
the nearest double.

The way there is through the row of the store. **A row is stored by the write that reports it**
(`Writer.exists_stored_isRow`), no call loses a row (`extends_run`), and a stored row is found by
its asset and day (`Reader.value_of_mem`).
-/

namespace DailyBars

variable {calendar : Calendar} {archive : Archive}

namespace Writer

/-- The rows of a table that is reported as written are in the store that its batch leaves. -/
theorem exists_isRow_of_reports (hcontiguous : archive.store.IsContiguous calendar)
    (hcalendar : calendar.IsLawfulOn Day.IsUnsigned) {behavior : Behavior}
    {known : Option (List AssetId)} {sources : List Source}
    (hdays : (Call.writeBatch behavior known sources).HasUnsignedDays) {position : Nat}
    {asset : AssetId} {table : Table} {outcome : AssetOutcome}
    (hsource : sources[position]? = some (asset, .ok table))
    (hreport : (writeTables calendar behavior known sources archive).Reports position outcome)
    (hrows : outcome.rowsWritten = table.height) {row : Nat} (hrow : row < table.height) :
    ∃ bar, table.IsRow asset row bar ∧
      bar.stored ∈ (writeTables calendar behavior known sources archive).archive.store.rows := by
  obtain ⟨source, earlier, hfound, hearlier, hresult, hextends⟩ := exists_of_reports hreport
  obtain rfl : (asset, .ok table) = source := Option.some_inj.1 (hsource.symm.trans hfound)
  have hcontiguous' : earlier.store.IsContiguous calendar := by
    rw [hearlier]
    exact isContiguous_writeTables hcontiguous hcalendar
      fun source hmem ↦ hdays source (List.mem_of_mem_take hmem)
  obtain ⟨bar, hbar, hstored⟩ := exists_stored_isRow hcontiguous' hcalendar
    (hdays _ (List.mem_of_getElem? hsource)) hresult hrows hrow
  exact ⟨bar, hbar, hextends.rows.mem hstored⟩

end Writer

/-- **Ingested values are never lost, altered or moved to another day.** -/
theorem value_of_ingested {calendar : Calendar} (hcalendar : calendar.IsLawfulOn Day.IsUnsigned)
    (calls : List Call) (hcalls : ∀ call ∈ calls, call.HasUnsignedDays) {behavior : Behavior}
    {known : Option (List AssetId)} {sources : List Writer.Source}
    (hsources : (Call.writeBatch behavior known sources).HasUnsignedDays) {position : Nat}
    {asset : AssetId} {table : Table} {outcome : AssetOutcome}
    (hsource : sources[position]? = some (asset, .ok table))
    (hreport : (Writer.writeTables calendar behavior known sources
      (run calendar calls .empty)).Reports position outcome)
    (hrows : outcome.rowsWritten = table.height) (later : List Call)
    (hlater : ∀ call ∈ later, call.HasUnsignedDays) (threshold : Nat) {row : Nat}
    (hrow : row < table.height) :
    let archive := run calendar (calls ++ .writeBatch behavior known sources :: later) .empty
    let value := fun day field ↦
      ((Reader.value ⟨archive.store, calendar, threshold⟩ asset day field).run archive.cache).1
    ∃ day, table.dayAt? asset row = some day ∧
      (∀ field, field.isPrice = true → ∃ entry, table.priceAt? field row = some entry ∧
        value day field = .ok (Table.servedPrice entry)) ∧
      ∃ entry, table.volumeAt? row = some entry ∧
        value day .volume = .ok (.ofInt (entry.getD 0).toInt) ∧
        (Binary64.ofInt (entry.getD 0).toInt).IsNearest (entry.getD 0).toInt := by
  intro archive value
  have hbefore : (run calendar calls .empty).store.IsContiguous calendar :=
    isContiguous_run_empty hcalendar hcalls
  have hcontiguous : archive.store.IsContiguous calendar :=
    isContiguous_run_empty hcalendar
      (List.forall_mem_append.2 ⟨hcalls, List.forall_mem_cons.2 ⟨hsources, hlater⟩⟩)
  have hcoherent : archive.cache.IsCoherent calendar archive.store :=
    isCoherent_run_empty calendar _
  obtain ⟨bar, hbar, hstored⟩ := Writer.exists_isRow_of_reports hbefore hcalendar hsources hsource
    hreport hrows hrow
  have hmem : bar.stored ∈ archive.store.rows := by
    have hextends := extends_run calendar later
      ((Call.writeBatch behavior known sources).perform calendar (run calendar calls .empty))
    rw [← run_cons, ← run_append] at hextends
    exact hextends.rows.mem hstored
  have hvalue : ∀ field, value bar.day field = .ok (field.present (bar.stored.value field)) := by
    intro field
    have hfound := Reader.value_of_mem ⟨archive.store, calendar, threshold⟩ hcontiguous hcalendar
      hcoherent hmem field
    rwa [Bar.stored_asset, hbar.asset_eq] at hfound
  refine ⟨bar.day, hbar.day, fun field hprice ↦ ?_, ?_⟩
  · obtain ⟨entry, hentry, hkept⟩ := hbar.price field hprice
    refine ⟨entry, hentry, ?_⟩
    rw [hvalue, bar.value_stored_of_isPrice hprice, hkept, Table.present_keptPrice hprice]
  · obtain ⟨entry, hentry, hvolume⟩ := hbar.volume
    refine ⟨entry, hentry, ?_⟩
    rw [← hvolume, ← bar.value_volume]
    exact ⟨(hvalue .volume).trans (congrArg _ (Field.present_volume _)), bar.isNearest_volume⟩

namespace Sample

/-- Two rows, the later day first, of columns of different types and one that does not matter. -/
def table : Table where
  columns := [⟨"Day", .date [some 19724, some 19723]⟩, ⟨"open", .whole .int64 [some 5, none]⟩,
    ⟨"high", .untyped 2⟩, ⟨"low", .truth [some true, some false]⟩, ⟨"note", .text [none, none]⟩,
    ⟨"close", .real .double [some .infinity, some .nan]⟩, ⟨"volume", .whole .int32 [some 9, none]⟩]
  height := 2
  isRectangular := by decide
  distinctNames := by decide

/-- What becomes of the table. -/
def tableBars : List Bar :=
  [⟨⟨7⟩, day 0, .zero, .zero, .zero, .zero, 0⟩, ⟨⟨7⟩, day 1, .ofInt 5, .zero, .ofInt 1, .zero, 9⟩]

theorem bars_table : table.bars ⟨7⟩ = .ok tableBars := by
  have hday : table.dayColumn? = some ⟨"Day", .date [some 19724, some 19723]⟩ := by cbv
  have hfields : (Field.all.map Field.name).filter (fun name ↦ (table.find? name).isNone) = [] := by
    cbv
  have hmissing : table.missingColumns = [] := by
    rw [Table.missingColumns, hday, hfields]
    rfl
  have hrows : table.rowBars ⟨7⟩ = .ok tableBars.reverse := by
    rw [Table.rowBars]
    simp only [hmissing, hday]
    cbv
  rw [Table.bars, hrows]
  cbv

/-- The table for an asset, and for another one that is not known. -/
def tables : List Writer.Source :=
  [(⟨7⟩, .ok table), (⟨8⟩, .ok table)]

theorem barsOf?_table : Writer.barsOf? (some [⟨7⟩]) (⟨7⟩, .ok table) = some tableBars := by
  rw [Writer.barsOf?, if_pos (by decide)]
  simp only [bars_table]
  rfl

theorem hasUnsignedDays_tables :
    (Call.writeBatch .raise (some [⟨7⟩]) tables).HasUnsignedDays := by
  intro source hsource bars hbars
  simp only [tables, List.mem_cons, List.not_mem_nil, or_false] at hsource
  rcases hsource with rfl | rfl
  · rw [barsOf?_table] at hbars
    cases hbars
    decide
  · cases hbars

/-- What is written of the bars is what is reported of the first table. -/
theorem reports_of_writeBars {behavior : Behavior} {archive : Archive} {outcome : AssetOutcome}
    (h : (Writer.writeBars weekdays behavior ⟨7⟩ tableBars archive).1 = .ok outcome) :
    (Writer.writeTables weekdays behavior (some [⟨7⟩]) tables archive).Reports 0 outcome := by
  have hsource : Writer.writeSource weekdays behavior (some [⟨7⟩]) (⟨7⟩, .ok table) archive =
      Writer.writeBars weekdays behavior ⟨7⟩ tableBars archive :=
    Writer.writeSource_of_some barsOf?_table
  rw [← hsource] at h
  rw [Writer.writeTables, tables, Writer.writeFrom_cons]
  split
  · rename_i hresult
    rw [hresult] at h
    cases h
  · rename_i hresult
    rw [hresult] at h
    cases h
    exact Or.inr (Writer.completed_mem_after.2 (Or.inl ⟨rfl, rfl⟩))

theorem reports_tables : (Writer.writeTables weekdays .raise (some [⟨7⟩]) tables .empty).Reports 0
    (.written ⟨7⟩ 2 []) :=
  reports_of_writeBars (by cbv)

end Sample

theorem value_of_ingested_table :
    let archive := run Sample.weekdays ([] ++ .writeBatch .raise (some [⟨7⟩]) Sample.tables ::
      Sample.middle) .empty
    let value := fun day field ↦
      ((Reader.value ⟨archive.store, Sample.weekdays, 1⟩ ⟨7⟩ day field).run archive.cache).1
    value (Sample.day 1) .openPrice = .ok (.ofInt 5) ∧ value (Sample.day 1) .closePrice = .ok .nan ∧
      value (Sample.day 1) .volume = .ok (.ofInt 9) := by
  intro archive value
  have hday : Sample.table.dayAt? ⟨7⟩ 0 = some (Sample.day 1) := by cbv
  have hopen : Sample.table.priceAt? .openPrice 0 = some (some (.ofInt 5)) := by cbv
  have hclose : Sample.table.priceAt? .closePrice 0 = some (some .infinity) := by cbv
  have hvolume : Sample.table.volumeAt? 0 = some (some 9) := by cbv
  have hsource : Sample.tables[0]? = some (⟨7⟩, .ok Sample.table) := rfl
  have hrow : 0 < Sample.table.height := by decide
  obtain ⟨day, hday', hprices, entry, hentry, hvalue, -⟩ := value_of_ingested
    Sample.isLawfulOn_weekdays [] (List.forall_mem_nil _) Sample.hasUnsignedDays_tables hsource
    Sample.reports_tables rfl Sample.middle Sample.hasUnsignedDays_middle 1 hrow
  obtain rfl := Option.some_inj.1 (hday.symm.trans hday')
  obtain rfl := Option.some_inj.1 (hvolume.symm.trans hentry)
  obtain ⟨price, hprice, hserved⟩ := hprices .openPrice rfl
  obtain rfl := Option.some_inj.1 (hopen.symm.trans hprice)
  obtain ⟨last, hlast, hnone⟩ := hprices .closePrice rfl
  obtain rfl := Option.some_inj.1 (hclose.symm.trans hlast)
  exact ⟨hserved, hnone, hvalue⟩

end DailyBars
