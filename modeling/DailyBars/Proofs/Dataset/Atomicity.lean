import DailyBars.Proofs.Dataset.Additions
import DailyBars.Proofs.Store.Transactions
import Mathlib

/-!
# Writes that fail

A write may fail in its plan, or at any row that it inserts: a price that is no number is refused
although the rows before it, of the same segment or of the one before, are inserted by then.
**Either all accepted rows are stored or nothing has happened at all**, to the rows as to the cache.

The bars are arbitrary: they may belong to any asset, come in any order and have any days, and the
store may be one that another calendar was used for.
-/

namespace DailyBars

namespace Writer

variable {calendar : Calendar} {behavior : Behavior} {asset : AssetId} {bars : List Bar}
  {archive : Archive}

/-- **A price that is no number fails the write**, wherever it is among the accepted bars. -/
theorem writeBars_of_hasNaN {plan : Plan}
    (hplan : planBars calendar behavior (archive.store.assetBounds? asset) asset bars = .ok plan)
    (hnan : ∃ bar ∈ plan.accepted, bar.hasNaN = true) :
    writeBars calendar behavior asset bars archive = (.error .database, archive) := by
  have hne : plan.accepted ≠ [] := by
    obtain ⟨bar, hbar, -⟩ := hnan
    exact List.ne_nil_of_mem hbar
  have hnone : archive.append? plan.accepted = none := by
    rw [Archive.append?, Store.append?_eq_none_iff.2 hnan, Option.map_none, ite_self]
  rw [writeBars, hplan]
  dsimp only
  rw [if_neg (by simpa using hne), hnone]

/-- **A write that fails changes nothing.** -/
theorem writeBars_archive_of_error {error : StoreError}
    (h : (writeBars calendar behavior asset bars archive).1 = .error error) :
    (writeBars calendar behavior asset bars archive).2 = archive := by
  rcases writeBars_cases calendar behavior asset bars archive with
    ⟨other, hwritten⟩ | ⟨dropped, -, hwritten⟩ | ⟨plan, next, -, -, -, hwritten⟩
  · rw [hwritten]
  · rw [hwritten] at h
    cases h
  · rw [hwritten] at h
    cases h

end Writer

/-- **A write stores all that its plan accepts, or changes nothing**, after any calls on a dataset:
it fails with its plan, or at the first accepted price that is no number, or else the accepted rows
are there together and the cache was dropped once for all of them. -/
theorem writeBars_all_or_nothing (written calendar : Calendar) (calls : List Call)
    (behavior : Behavior) (asset : AssetId) (bars : List Bar) :
    let archive := run written calls .empty
    let store := archive.store
    let write := Writer.writeBars calendar behavior asset bars archive
    let planned := Writer.planBars calendar behavior (store.assetBounds? asset) asset bars
    (∀ error, write.1 = .error error → write.2 = archive) ∧
    (∀ error, planned = .error error → write.1 = .error error) ∧
    ∀ plan, planned = .ok plan →
      ((∃ bar ∈ plan.accepted, bar.hasNaN = true) →
        write.1 = .error .database ∧
        ∃ earlier bar later working, plan.accepted = earlier ++ bar :: later ∧
          bar.hasNaN = true ∧ earlier.foldlM Store.insert? store = some working ∧
          working.rows.Perm (store.rows ++ earlier.map Bar.stored) ∧
          working.insert? bar = none) ∧
      ((∀ bar ∈ plan.accepted, bar.hasNaN = false) →
        write.1 = .ok (.written asset plan.accepted.length plan.dropped) ∧
        plan.accepted.foldlM Store.insert? store = some write.2.store ∧
        write.2.store.rows.Perm (store.rows ++ plan.accepted.map Bar.stored) ∧
        store.rows.Sublist write.2.store.rows ∧
        write.2.cache.generation =
          archive.cache.generation + if plan.accepted = [] then 0 else 1) := by
  intro archive store write planned
  have hwritable : archive.isReadOnly = false := (extends_run written calls .empty).isReadOnly_eq
  refine ⟨fun error ↦ Writer.writeBars_archive_of_error, fun error hplan ↦ ?_,
    fun plan hplan ↦ ⟨fun hnan ↦ ?_, fun hnumbers ↦ ?_⟩⟩
  · exact congrArg Prod.fst (Writer.writeBars_of_error hplan)
  · exact ⟨congrArg Prod.fst (Writer.writeBars_of_hasNaN hplan hnan),
      store.exists_insert?_eq_none hnan⟩
  · obtain ⟨next, hwrite, hstore, hcache⟩ := Writer.exists_writeBars_eq hwritable hplan hnumbers
    obtain rfl : write.2 = next := congrArg Prod.snd hwrite
    refine ⟨congrArg Prod.fst hwrite, (store.append?_eq_foldlM plan.accepted).symm.trans hstore,
      Store.rows_perm_of_append? hstore, Store.rows_sublist_of_append? hstore, ?_⟩
    rw [hcache]
    split <;> rfl

namespace Sample

/-- The days before and after the stored ones; the last price is no number. -/
def withoutPrice : List Bar :=
  [bar ⟨7⟩ 1 30, { bar ⟨7⟩ 4 40 with closePrice := .nan }]

end Sample

theorem writeBars_of_withoutPrice :
    let archive := run Sample.weekdays Sample.middle .empty
    let write := fun bars ↦ Writer.writeBars Sample.weekdays .raise ⟨7⟩ bars archive
    ((write Sample.withoutPrice).1 = .error .database ∧ (write Sample.withoutPrice).2 = archive) ∧
      (write (Sample.withoutPrice.take 1)).1 = .ok (.written ⟨7⟩ 1 []) ∧
      (write (Sample.withoutPrice.take 1)).2.cache.generation = 2 := by
  dsimp only
  have hboth : Writer.planBars Sample.weekdays .raise
      ((run Sample.weekdays Sample.middle .empty).store.assetBounds? ⟨7⟩) ⟨7⟩
      Sample.withoutPrice = .ok ⟨Sample.withoutPrice, []⟩ := by cbv
  have hone : Writer.planBars Sample.weekdays .raise
      ((run Sample.weekdays Sample.middle .empty).store.assetBounds? ⟨7⟩) ⟨7⟩
      (Sample.withoutPrice.take 1) = .ok ⟨[Sample.bar ⟨7⟩ 1 30], []⟩ := by cbv
  have hgeneration : (run Sample.weekdays Sample.middle .empty).cache.generation = 1 := by cbv
  obtain ⟨hsame, -, hfails⟩ := writeBars_all_or_nothing Sample.weekdays Sample.weekdays
    Sample.middle .raise ⟨7⟩ Sample.withoutPrice
  obtain ⟨-, -, hstores⟩ := writeBars_all_or_nothing Sample.weekdays Sample.weekdays
    Sample.middle .raise ⟨7⟩ (Sample.withoutPrice.take 1)
  obtain ⟨hresult, -⟩ := (hfails _ hboth).1 (by decide)
  obtain ⟨hwritten, -, -, -, hnext⟩ := (hstores _ hone).2 (by decide)
  rw [hgeneration] at hnext
  exact ⟨⟨hresult, hsame _ hresult⟩, hwritten, hnext⟩

end DailyBars
