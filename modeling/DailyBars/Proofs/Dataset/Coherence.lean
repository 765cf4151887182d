import DailyBars.Proofs.Dataset.Runs
import DailyBars.Proofs.Reader.LastTraded
import Mathlib

/-!
# Runs keep the cache coherent

A write that stores rows drops the cache, and all other calls leave the store as it is, so a
coherent cache stays coherent through every call (`Call.isCoherent_perform`). This needs nothing of
the calendar and of the days. That a coherent cache makes **no difference to any answer** needs the
store to be contiguous, which runs see to as well; together they say that readers answer as if
nothing had ever been cached.
-/

namespace DailyBars

variable {calendar : Calendar} {archive : Archive} {calls : List Call}

namespace Writer

theorem isCoherent_writeBars (h : archive.cache.IsCoherent calendar archive.store)
    (behavior : Behavior) (asset : AssetId) (bars : List Bar) :
    (writeBars calendar behavior asset bars archive).2.cache.IsCoherent calendar
      (writeBars calendar behavior asset bars archive).2.store := by
  have hnext := writeBars_stores calendar behavior asset bars archive
  dsimp only at hnext
  split at hnext
  · rw [hnext]
    exact Cache.isCoherent_invalidate _ _ _
  · rwa [hnext]

end Writer

namespace Call

/-- **Every call keeps a coherent cache coherent** with the store that it leaves. -/
theorem isCoherent_perform (call : Call) (h : archive.cache.IsCoherent calendar archive.store) :
    (call.perform calendar archive).cache.IsCoherent calendar
      (call.perform calendar archive).store := by
  cases call with
  | write behavior asset bars => exact Writer.isCoherent_writeBars h behavior asset bars
  | writeBatch behavior known sources =>
    exact Writer.writeTables_induction
      (motive := fun archive ↦ archive.cache.IsCoherent calendar archive.store)
      (fun source _ bars _ archive harchive ↦
        Writer.isCoherent_writeBars harchive behavior source.1 bars) h
  | ask threshold query =>
    exact (query.answers_ask ⟨archive.store, calendar, threshold⟩ archive.cache h).2.1

/-- A call counts one generation for each execution that stores a row. -/
theorem generation_perform (call : Call) (h : archive.cache.IsCoherent calendar archive.store) :
    (call.perform calendar archive).cache.generation =
      archive.cache.generation + Writer.storing (call.executions calendar archive) := by
  cases call with
  | write behavior asset bars =>
    exact Writer.generation_writeBars calendar behavior asset bars archive
  | writeBatch behavior known sources => exact Writer.generation_writeTables sources archive
  | ask threshold query =>
    exact (query.answers_ask ⟨archive.store, calendar, threshold⟩ archive.cache h).2.2

end Call

theorem isCoherent_run (h : archive.cache.IsCoherent calendar archive.store) :
    (run calendar calls archive).cache.IsCoherent calendar (run calendar calls archive).store :=
  run_induction (motive := fun archive ↦ archive.cache.IsCoherent calendar archive.store)
    (fun call _ _ harchive ↦ call.isCoherent_perform harchive) h

theorem isCoherent_run_empty (calendar : Calendar) (calls : List Call) :
    (run calendar calls .empty).cache.IsCoherent calendar (run calendar calls .empty).store :=
  isCoherent_run (Cache.isCoherent_empty calendar Store.empty)

theorem generation_run (h : archive.cache.IsCoherent calendar archive.store) :
    (run calendar calls archive).cache.generation =
      archive.cache.generation + Writer.storing (executions calendar calls archive) := by
  induction calls generalizing archive with
  | nil => rfl
  | cons call rest ih =>
    rw [run_cons, ih (call.isCoherent_perform h), call.generation_perform h, executions,
      Writer.storing_append, Nat.add_assoc]

/-- **Readers answer as if nothing had ever been cached**: after any calls on a dataset, each query
is answered from the cache as it would be with an empty one, and the cache has counted the
executions that stored a row. The calendar need not be lawful outside the years 0 to 9999. -/
theorem ask_eq_uncached (hcalendar : calendar.IsLawfulOn Day.IsUnsigned) (calls : List Call)
    (hdays : ∀ call ∈ calls, call.HasUnsignedDays) :
    let archive := run calendar calls .empty
    (∀ (threshold : Nat) (query : Query),
      ((query.ask ⟨archive.store, calendar, threshold⟩).run archive.cache).1 =
        ((query.ask ⟨archive.store, calendar, threshold⟩).run Cache.empty).1) ∧
    archive.cache.generation = Writer.storing (executions calendar calls .empty) := by
  intro archive
  have hcoherent : archive.cache.IsCoherent calendar archive.store :=
    isCoherent_run_empty calendar calls
  have hcontiguous : archive.store.IsContiguous calendar :=
    isContiguous_run_empty hcalendar hdays
  constructor
  · intro threshold query
    obtain ⟨result, hresult⟩ :=
      query.exists_computes_ask ⟨archive.store, calendar, threshold⟩ hcontiguous hcalendar
    exact hresult.fst_eq hcoherent
  · have hgeneration : archive.cache.generation = Archive.empty.cache.generation +
        Writer.storing (executions calendar calls .empty) :=
      generation_run (Cache.isCoherent_empty calendar Store.empty)
    exact hgeneration.trans (Nat.zero_add _)

namespace Sample

/-- After the writes, a read of whole columns fills the cache. -/
def writesAndRead : List Call :=
  writes ++ [.ask 0 (.load [.volume] (day 0) (day 1) [⟨7⟩])]

theorem hasUnsignedDays_writesAndRead : ∀ call ∈ writesAndRead, call.HasUnsignedDays := by
  refine List.forall_mem_append.2 ⟨hasUnsignedDays_writes, ?_⟩
  rw [List.forall_mem_singleton]
  trivial

end Sample

theorem ask_writesAndRead_eq_uncached :
    let archive := run Sample.weekdays Sample.writesAndRead .empty
    let value := Query.value ⟨7⟩ (Sample.day 1) .volume
    ((value.ask ⟨archive.store, Sample.weekdays, 3⟩).run archive.cache).1 =
        ((value.ask ⟨archive.store, Sample.weekdays, 3⟩).run Cache.empty).1 ∧
      archive.cache.generation = 1 := by
  have hstoring : Writer.storing (executions Sample.weekdays Sample.writesAndRead .empty) = 1 := by
    cbv
  have h := ask_eq_uncached Sample.isLawfulOn_weekdays Sample.writesAndRead
    Sample.hasUnsignedDays_writesAndRead
  exact ⟨h.1 3 (.value ⟨7⟩ (Sample.day 1) .volume), h.2.trans hstoring⟩

end DailyBars
