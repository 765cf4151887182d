import DailyBars.Proofs.Dataset.Ingested
import DailyBars.Proofs.Writer.Independence
import Mathlib

/-!
# The order of a batch does not matter

Tables of different assets may be written in any order, and in one batch or several: **each has the
same outcome, and the store is the same in the end**, and with it all that is read from it. The
outcome of a table and the rows that its asset has afterwards are those of a store that holds no
other asset.

This holds after any calls on a dataset and under any calendar. It does not hold of batches that
raise, since one of these ends at a table and leaves out those after it, nor where the program stops
at a table, which takes a stored day outside of the years 0 to 9999.
-/

namespace DailyBars

/-- **Batches of different assets may be ordered and cut in any way**, unless the program stops at
one of the tables even if it is written alone, and then a day outside of the years 0 to 9999 was
written before. -/
theorem writeBatches_regroup (written calendar : Calendar) (calls : List Call) {behavior : Behavior}
    (hbehavior : behavior ≠ .raise) (known : Option (List AssetId)) {sources : List Writer.Source}
    (hdistinct : (sources.map Prod.fst).Nodup) :
    let archive := run written calls .empty
    (∃ (outcomeOf : Writer.Source → AssetOutcome) (final : Store),
      (∀ batches : List (List Writer.Source), batches.flatten.Perm sources →
        let (results, last) := Writer.writeBatches calendar behavior known batches archive
        results = batches.map (fun batch ↦
          .ok ((batch.map outcomeOf).foldl WriteSummary.record .empty)) ∧ last.store = final) ∧
      (∀ source ∈ sources,
        Writer.writeAlone calendar behavior known (archive.store.assetRows source.1) source =
          (.ok (outcomeOf source), final.assetRows source.1)) ∧
      ∀ asset, asset ∉ sources.map Prod.fst →
        final.assetRows asset = archive.store.assetRows asset) ∨
    ∃ source ∈ sources,
      Writer.writeAlone calendar behavior known (archive.store.assetRows source.1) source =
          (.error .stopped, archive.store.assetRows source.1) ∧
        ∃ call ∈ calls, ¬call.HasUnsignedDays := by
  intro archive
  have hwritable : archive.isReadOnly = false := (extends_run written calls .empty).isReadOnly_eq
  let alone := fun source : Writer.Source ↦
    Writer.writeAlone calendar behavior known (archive.store.assetRows source.1) source
  by_cases hstops : ∃ source ∈ sources, ∀ outcome, (alone source).1 ≠ .ok outcome
  · obtain ⟨source, hsource, hnone⟩ := hstops
    obtain ⟨hstopped, bar, hbar, hday⟩ :=
      (Writer.exists_writeAlone_eq calendar known hbehavior hwritable source).resolve_left
        fun ⟨outcome, houtcome⟩ ↦ hnone outcome houtcome
    refine Or.inr ⟨source, hsource, hstopped, ?_⟩
    by_contra hcalls
    exact hday (days_run_empty written (by simpa using hcalls) bar (Store.mem_assetRows.1 hbar).1)
  left
  have houtcomes : ∀ source, ∃ outcome, source ∈ sources → (alone source).1 = .ok outcome := by
    intro source
    by_cases hsource : source ∈ sources
    · by_contra hnone
      exact hstops ⟨source, hsource, fun outcome houtcome ↦ hnone ⟨outcome, fun _ ↦ houtcome⟩⟩
    · exact ⟨.skipped source.1, fun hmem ↦ absurd hmem hsource⟩
  choose outcomeOf houtcome using houtcomes
  have halone : ∀ source ∈ sources, alone source = (.ok (outcomeOf source), (alone source).2) :=
    fun source hsource ↦ Prod.ext (houtcome source hsource) rfl
  have hwritten : ∀ batches : List (List Writer.Source), batches.flatten.Perm sources →
      let written := Writer.writeBatches calendar behavior known batches archive
      written.1 = batches.map (fun batch ↦
          .ok ((batch.map outcomeOf).foldl WriteSummary.record .empty)) ∧
        ∀ source ∈ sources, written.2.store.assetRows source.1 = (alone source).2 := by
    intro batches hperm
    obtain ⟨hresults, hrows⟩ := Writer.writeBatches_of_alone
      ((hperm.map Prod.fst).nodup_iff.2 hdistinct) hwritable
      fun source hsource ↦ halone source (hperm.mem_iff.1 hsource)
    exact ⟨hresults, fun source hsource ↦ hrows source (hperm.mem_iff.2 hsource)⟩
  have hothers : ∀ batches : List (List Writer.Source), batches.flatten.Perm sources →
      ∀ asset, asset ∉ sources.map Prod.fst →
        (Writer.writeBatches calendar behavior known batches archive).2.store.assetRows asset =
          archive.store.assetRows asset := by
    intro batches hperm asset hasset
    refine Writer.assetRows_writeBatches_of_ne (fun source hsource heq ↦ hasset ?_) archive
    rw [heq]
    exact List.mem_map_of_mem (hperm.mem_iff.1 hsource)
  have hone : [sources].flatten.Perm sources := by rw [List.flatten_singleton]
  refine ⟨outcomeOf, (Writer.writeBatches calendar behavior known [sources] archive).2.store,
    fun batches hperm ↦ ⟨(hwritten batches hperm).1, Store.eq_of_assetRows fun asset ↦ ?_⟩,
    fun source hsource ↦ ?_, hothers [sources] hone⟩
  · by_cases hasset : asset ∈ sources.map Prod.fst
    · obtain ⟨source, hsource, rfl⟩ := List.mem_map.1 hasset
      rw [(hwritten batches hperm).2 source hsource, (hwritten _ hone).2 source hsource]
    · rw [hothers batches hperm asset hasset, hothers _ hone asset hasset]
  · rw [(hwritten _ hone).2 source hsource]
    exact halone source hsource

/-- One of the tables ends the day before what is stored of its asset, the other is the first of its
asset; they are also written the other way round, each in a batch of its own. -/
theorem writeBatches_regroup_tables :
    let archive := run Sample.weekdays Sample.middle .empty
    let write := fun batches ↦ Writer.writeBatches Sample.weekdays .ignore none batches archive
    archive.store.rowCount = 2 ∧ ∃ outcomeOf : Writer.Source → AssetOutcome,
      (write [Sample.tables]).1 =
        [.ok ((Sample.tables.map outcomeOf).foldl WriteSummary.record .empty)] ∧
      (write (Sample.tables.reverse.map fun source ↦ [source])).1 =
        Sample.tables.reverse.map (fun source ↦
          .ok (WriteSummary.empty.record (outcomeOf source))) ∧
      (write (Sample.tables.reverse.map fun source ↦ [source])).2.store =
        (write [Sample.tables]).2.store := by
  have hcount : (run Sample.weekdays Sample.middle .empty).store.rowCount = 2 := by cbv
  have hdistinct : (Sample.tables.map Prod.fst).Nodup := by decide
  obtain ⟨outcomeOf, final, hbatches, -⟩ | ⟨-, -, -, call, hcall, hdays⟩ :=
    writeBatches_regroup Sample.weekdays Sample.weekdays Sample.middle
      (by decide : Behavior.ignore ≠ .raise) none hdistinct
  case inr => exact absurd (Sample.hasUnsignedDays_middle call hcall) hdays
  have hone := hbatches [Sample.tables] (List.Perm.refl _)
  have hreversed := hbatches (Sample.tables.reverse.map fun source ↦ [source])
    (List.reverse_perm Sample.tables)
  exact ⟨hcount, outcomeOf, hone.1, hreversed.1, hreversed.2.trans hone.2.symm⟩

end DailyBars
