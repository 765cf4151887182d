import DailyBars.Proofs.Dataset.Runs
import DailyBars.Proofs.Writer.Dispositions
import Mathlib

/-!
# Batches that raise

After any calls on a dataset, a batch may be written under each of the three dispositions. Two of
them are the same but for their names; **the third is a batch of fewer tables**: those before the
first of which something is dropped.

The calendar of the batch need not be the one that the dataset was written with, and neither of them
needs to be lawful, since a disposition never looks at days. Only if a day lies outside of the years
0 to 9999, a batch may not come to its end; then it stops in the same place under each of them, if
nothing is dropped before.
-/

namespace DailyBars

/-- **A batch that raises writes the tables before the first drop**, and fails with its reason. The
others have an outcome for each table, unless a day outside of the years 0 to 9999 is stored, where
the program may stop. -/
theorem writeTables_raise (written calendar : Calendar) (calls : List Call)
    (known : Option (List AssetId)) (sources : List Writer.Source) :
    let archive := run written calls .empty
    let batch := fun behavior sources ↦
      Writer.writeTables calendar behavior known sources archive
    batch .ignore sources = batch .warn sources ∧
    ∃ summary,
      ((batch .warn sources).result = .ok summary ∧ summary.outcomes.length = sources.length ∨
        (batch .warn sources).result = .error .stopped ∧
          summary.outcomes.length < sources.length ∧
          (batch .warn (sources.take summary.outcomes.length)).result = .ok summary ∧
          ∃ call ∈ calls ++ [.writeBatch .warn known sources], ¬call.HasUnsignedDays) ∧
      ((∀ outcome ∈ summary.outcomes, outcome.dropped = []) ∧
          batch .raise sources = batch .warn sources ∨
        ∃ k segment, Writer.IsFirstDrop summary.outcomes k segment ∧
          (batch .raise sources).result = .error segment.reason ∧
          (batch .raise sources).archive = (batch .warn (sources.take k)).archive) := by
  intro archive batch
  have hwritable : archive.isReadOnly = false := (extends_run written calls .empty).isReadOnly_eq
  obtain ⟨hignore, outcomes, hends, hraise⟩ :=
    Writer.writeFrom_raise calendar known sources hwritable 0 .empty
  have houtcomes : (outcomes.foldl WriteSummary.record .empty).outcomes = outcomes :=
    Writer.outcomes_foldl_record outcomes .empty
  refine ⟨hignore, outcomes.foldl WriteSummary.record .empty, ?_, by rw [houtcomes]; exact hraise⟩
  rw [houtcomes]
  cases hends with
  | completed hlength hresult => exact Or.inl ⟨hresult, hlength⟩
  | stopped hlength hbefore hresult hday =>
    refine Or.inr ⟨hresult, hlength, hbefore, ?_⟩
    -- If all days were in these years, so were those that are stored in the end.
    by_contra hnone
    obtain ⟨hcalls, hlast⟩ : (∀ call ∈ calls, call.HasUnsignedDays) ∧
        (Call.writeBatch .warn known sources).HasUnsignedDays := by
      simpa using hnone
    obtain ⟨bar, hbar, hday⟩ := hday
    exact hday (Call.days_perform hlast (days_run_empty written hcalls) bar hbar)

end DailyBars
