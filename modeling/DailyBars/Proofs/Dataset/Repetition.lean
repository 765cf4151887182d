import DailyBars.Proofs.Dataset.Ingested
import DailyBars.Proofs.Writer.Repetition
import Mathlib

/-!
# Batches that are written again

A batch of tables of different assets may be written twice: **the second time nothing changes**, no
rows are reported and no key is stored twice. The disposition may be another one, except that what a
batch that raised has left out is stored by one that does not.

That no rows are reported needs no look at the tables: what is reported as written is there in the
end (`Writer.rowCount_add_le_of_reports`), and there is nothing more than before.
-/

namespace DailyBars

/-- **Writing a batch again stores nothing**, after any calls under a lawful calendar. -/
theorem writeTables_again {calendar : Calendar} (hcalendar : calendar.IsLawfulOn Day.IsUnsigned)
    (calls : List Call) (hcalls : ∀ call ∈ calls, call.HasUnsignedDays) {first second : Behavior}
    (hraise : first = .raise → second = .raise) {known : Option (List AssetId)}
    {sources : List Writer.Source} (hdistinct : (sources.map Prod.fst).Nodup)
    (hsources : (Call.writeBatch first known sources).HasUnsignedDays) :
    let once := Writer.writeTables calendar first known sources (run calendar calls .empty)
    let twice := Writer.writeTables calendar second known sources once.archive
    twice.archive = once.archive ∧
    (∀ position outcome, twice.Reports position outcome → outcome.rowsWritten = 0) ∧
    (second ≠ .raise → ∃ summary, twice.result = .ok summary ∧
      summary.outcomes.length = sources.length) ∧
    (twice.archive.store.rows.map Bar.key).Nodup := by
  intro once twice
  have hcontiguous : (run calendar calls .empty).store.IsContiguous calendar :=
    isContiguous_run_empty hcalendar hcalls
  have hextends := extends_run calendar calls .empty
  have honce : once.archive.store.IsContiguous calendar :=
    Writer.isContiguous_writeTables hcontiguous hcalendar hsources
  have hwritable : once.archive.isReadOnly = false :=
    (Writer.extends_writeFrom calendar first known sources 0 .empty _).isReadOnly_eq.trans
      hextends.isReadOnly_eq
  have hsame : twice.archive = once.archive :=
    Writer.writeFrom_again hcalendar hraise hdistinct hsources hextends.isReadOnly_eq hcontiguous
      honce fun _ _ ↦ rfl
  refine ⟨hsame, fun position outcome hreports ↦ ?_, fun hsecond ↦
    Writer.exists_result_of_ne hsecond calendar known sources hwritable ?_, ?_⟩
  · have hle := Writer.rowCount_add_le_of_reports hreports
    rw [show (Writer.writeTables calendar second known sources once.archive).archive =
      once.archive from hsame] at hle
    omega
  · rw [show (Writer.writeTables calendar second known sources once.archive).archive =
      once.archive from hsame]
    exact honce.unsigned
  · rw [hsame]
    exact honce.nodup_keys hcalendar

/-- The table ends the day before the stored span, and is stored the first time. -/
theorem writeTables_again_of_tables :
    let once := Writer.writeTables Sample.weekdays .warn (some [⟨7⟩]) Sample.tables
      (run Sample.weekdays Sample.middle .empty)
    let twice := Writer.writeTables Sample.weekdays .ignore (some [⟨7⟩]) Sample.tables once.archive
    once.Reports 0 (.written ⟨7⟩ 2 []) ∧ twice.archive = once.archive ∧
      ∀ position outcome, twice.Reports position outcome → outcome.rowsWritten = 0 := by
  intro once twice
  obtain ⟨hsame, hreports, -⟩ := writeTables_again Sample.isLawfulOn_weekdays Sample.middle
    Sample.hasUnsignedDays_middle (by decide : Behavior.warn = .raise → Behavior.ignore = .raise)
    (by decide : (Sample.tables.map Prod.fst).Nodup) Sample.hasUnsignedDays_tables
  have hplan : Writer.planBars Sample.weekdays .warn
      ((run Sample.weekdays Sample.middle .empty).store.assetBounds? ⟨7⟩) ⟨7⟩ Sample.tableBars =
        .ok ⟨Sample.tableBars, []⟩ := by cbv
  obtain ⟨next, hwritten, -⟩ := Writer.exists_writeBars_eq
    (extends_run Sample.weekdays Sample.middle .empty).isReadOnly_eq hplan (by decide)
  exact ⟨Sample.reports_of_writeBars (congrArg Prod.fst hwritten), hsame, hreports⟩

end DailyBars
