import DailyBars.Proofs.Dataset.Ingested
import DailyBars.Proofs.Writer.Accounting
import Mathlib

/-!
# Batches lose no row

A batch that does not raise comes to its end, after any calls on a dataset and under any calendar,
and says of each table what became of it. **Each row of a table is stored or counted in exactly one
dropped segment**, unless the table is skipped. The counts of a report are counts of bars: those
that are added to the store, and those of the segments that the other bars of the table make up.

An asset may come more than once. Its later tables find the bounds that the earlier ones left, which
are in order because all days have the same form.
-/

namespace DailyBars

/-- **Every row of a batch is stored or dropped, and counted once**: in the outcomes, which are in
the order of the tables, in the totals, and in the store. -/
theorem writeTables_accounts (written calendar : Calendar) (calls : List Call)
    (hcalls : ∀ call ∈ calls, call.HasUnsignedDays) {behavior : Behavior}
    (hbehavior : behavior ≠ .raise) {known : Option (List AssetId)} {sources : List Writer.Source}
    (hsources : (Call.writeBatch behavior known sources).HasUnsignedDays) :
    let archive := run written calls .empty
    let batch := Writer.writeTables calendar behavior known sources archive
    ∃ summary, ∃ added : List (List Bar), batch.result = .ok summary ∧
      summary.outcomes.map AssetOutcome.asset = sources.map Prod.fst ∧
      added.map List.length = summary.outcomes.map AssetOutcome.rowsWritten ∧
      batch.archive.store.rows.Perm (archive.store.rows ++ added.flatten.map Bar.stored) ∧
      (∀ (k : Nat) asset table outcome own, sources[k]? = some (asset, .ok table) →
        summary.outcomes[k]? = some outcome → added[k]? = some own →
        outcome.isSkipped = !Writer.isKnown known asset ∧
        (outcome.isSkipped = false →
          outcome.rowsWritten + (outcome.dropped.map DroppedSegment.rows).sum = table.height ∧
          ∀ bars, table.bars asset = .ok bars → ∃ segments : List (List Bar),
            bars.Perm (own ++ segments.flatten) ∧
            outcome.dropped.map DroppedSegment.rows = segments.map List.length)) ∧
      summary.rowsWritten = (summary.outcomes.map AssetOutcome.rowsWritten).sum ∧
      summary.droppedSegments = (summary.outcomes.map fun outcome ↦ outcome.dropped.length).sum ∧
      summary.skippedAssets = summary.outcomes.countP AssetOutcome.isSkipped ∧
      batch.archive.store.rowCount = archive.store.rowCount + summary.rowsWritten := by
  intro archive batch
  have hwritable : archive.isReadOnly = false := (extends_run written calls .empty).isReadOnly_eq
  have hdays : ∀ bar ∈ archive.store.rows, bar.day.IsUnsigned :=
    days_run_empty written hcalls
  obtain ⟨entries, hresult, haccounts, hrows⟩ :=
    Writer.exists_writeFrom_eq calendar hbehavior hsources hwritable hdays 0 .empty
  have houtcomes : ((entries.map Prod.snd).foldl WriteSummary.record .empty).outcomes =
      entries.map Prod.snd :=
    Writer.outcomes_foldl_record (entries.map Prod.snd) .empty
  have htotal := WriteSummary.isTotal_empty.foldl_record (entries.map Prod.snd)
  have hadded := Writer.AccountsAll.map_length_eq haccounts
  generalize (entries.map Prod.snd).foldl WriteSummary.record .empty = summary at *
  refine ⟨_, entries.map Prod.fst, hresult, ?_, ?_, hrows, ?_, htotal.rowsWritten,
    htotal.droppedSegments, htotal.skippedAssets, ?_⟩
  · rw [houtcomes, Writer.AccountsAll.map_asset_eq haccounts]
  · rw [houtcomes, hadded]
  · intro k asset table outcome own hsource houtcome hown
    rw [houtcomes] at houtcome
    have haccount := Writer.AccountsAll.accounts haccounts hsource houtcome hown
    exact ⟨haccount.isSkipped_eq, fun hskipped ↦ ⟨haccount.rowsWritten_add hskipped,
      fun bars htable ↦ haccount.exists_segments hskipped htable⟩⟩
  · refine hrows.length_eq.trans ?_
    rw [List.length_append, List.length_map, List.length_flatten, hadded, ← houtcomes,
      ← htotal.rowsWritten]
    rfl

/-- The second time a table of the known asset comes, it is inside the stored span. -/
theorem writeTables_accounts_of_tables :
    let archive := run Sample.weekdays Sample.middle .empty
    let batch := Writer.writeTables Sample.weekdays .warn (some [⟨7⟩])
      (Sample.tables ++ Sample.tables) archive
    archive.store.rowCount = 2 ∧ ∃ summary outcome, batch.result = .ok summary ∧
      summary.outcomes.map AssetOutcome.asset = [⟨7⟩, ⟨8⟩, ⟨7⟩, ⟨8⟩] ∧
      summary.outcomes[2]? = some outcome ∧
      outcome.rowsWritten + (outcome.dropped.map DroppedSegment.rows).sum = 2 ∧
      batch.archive.store.rowCount = 2 + summary.rowsWritten := by
  have hcount : (run Sample.weekdays Sample.middle .empty).store.rowCount = 2 := by cbv
  obtain ⟨summary, added, hresult, hassets, hadded, -, htables, -, -, -, hrows⟩ :=
    writeTables_accounts Sample.weekdays Sample.weekdays Sample.middle Sample.hasUnsignedDays_middle
      (by decide : Behavior.warn ≠ .raise)
      (List.forall_mem_append.2 ⟨Sample.hasUnsignedDays_tables, Sample.hasUnsignedDays_tables⟩ :
        (Call.writeBatch .warn (some [⟨7⟩]) (Sample.tables ++ Sample.tables)).HasUnsignedDays)
  have hlength : summary.outcomes.length = 4 := by
    simpa [Sample.tables] using congrArg List.length hassets
  have hlength' : added.length = 4 := by
    simpa [hlength] using congrArg List.length hadded
  have houtcome : summary.outcomes[2]? = some summary.outcomes[2] := List.getElem?_eq_getElem _
  have hown : added[2]? = some added[2] := List.getElem?_eq_getElem _
  obtain ⟨hskipped, hcounted⟩ := htables 2 ⟨7⟩ Sample.table _ _ rfl houtcome hown
  exact ⟨hcount, summary, _, hresult, hassets, houtcome, (hcounted hskipped).1, hcount ▸ hrows⟩

end DailyBars
