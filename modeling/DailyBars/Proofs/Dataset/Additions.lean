import DailyBars.Proofs.Dataset.Runs
import DailyBars.Proofs.Writer.Admission
import Mathlib

/-!
# What a write adds to a dataset

After any calls on a dataset, a write of numbers that does not raise adds to the rows what
`Writer.admitted` says, each bar once and equal to the one that was given, and leaves every row
that was there. **The disposition and the order of the parts are no part of the answer**: what is
dropped before the stored span has no influence on what is stored after it.

That a dataset can be written at all is inherited from the archive that it began with, since no
call changes it (`extends_run`).
-/

namespace DailyBars

/-- **A write stores what is admitted and nothing else**, after any calls on a dataset with a lawful
calendar. -/
theorem writeBars_stores_admitted {calendar : Calendar}
    (hcalendar : calendar.IsLawfulOn Day.IsUnsigned) (calls : List Call)
    (hdays : ∀ call ∈ calls, call.HasUnsignedDays) {behavior : Behavior}
    (hbehavior : behavior ≠ .raise) (asset : AssetId) (bars : List Bar)
    (hunsigned : ∀ bar ∈ bars, bar.day.IsUnsigned)
    (hnumbers : ∀ bar ∈ bars, bar.hasNaN = false) :
    let archive := run calendar calls .empty
    let stored := (archive.store.assetRows asset).map Bar.day
    let added := Writer.admitted calendar asset stored bars
    let written := Writer.writeBars calendar behavior asset bars archive
    stored.Pairwise (· < ·) ∧
    (∃ dropped, written.1 = .ok (.written asset added.length dropped)) ∧
    written.2.store.rows.Perm (archive.store.rows ++ added.map Bar.stored) ∧
    (written.2.store.rows.map Bar.key).Nodup ∧
    archive.store.rows.Sublist written.2.store.rows ∧
    (∀ other, other ≠ asset → written.2.store.assetRows other = archive.store.assetRows other) ∧
    ∀ bar ∈ added, bar ∈ bars ∧ bar.asset = asset ∧ bar.stored.Equals bar := by
  intro archive stored added written
  have hcontiguous : archive.store.IsContiguous calendar :=
    isContiguous_run_empty hcalendar hdays
  have hwritable : archive.isReadOnly = false := (extends_run calendar calls .empty).isReadOnly_eq
  obtain ⟨hresult, hrows⟩ := Writer.writeBars_eq_admitted asset hbehavior hcontiguous
    hcalendar hwritable hunsigned hnumbers
  have hadded : ∀ bar ∈ added, bar ∈ bars ∧ bar.asset = asset := fun bar hbar ↦
    Writer.mem_of_mem_admitted hbar
  have hperm : written.2.store.rows.Perm (archive.store.rows ++ added.map Bar.stored) ∧
      ∀ other, other ≠ asset → written.2.store.assetRows other = archive.store.assetRows other := by
    rcases hrows with ⟨hnone, hsame⟩ | hnext
    · change added = [] at hnone
      change written.2 = archive at hsame
      rw [hnone, hsame, List.map_nil, List.append_nil]
      exact ⟨List.Perm.refl _, fun _ _ ↦ rfl⟩
    · obtain ⟨-, store, hstore, hnext⟩ := Archive.append?_eq_some_iff.1 hnext
      change written.2 = _ at hnext
      rw [hnext]
      exact ⟨Store.rows_perm_of_append? hstore, fun other hother ↦
        Store.assetRows_of_append?_of_ne hstore fun bar hbar heq ↦
          hother (heq.symm.trans (hadded bar hbar).2)⟩
  have hnext : written.2.store.IsContiguous calendar :=
    Writer.isContiguous_writeBars hcontiguous hcalendar hunsigned
  exact ⟨hcontiguous.ascending hcalendar asset, hresult, hperm.1, hnext.nodup_keys hcalendar,
    (Writer.extends_writeBars calendar behavior asset bars archive).rows, hperm.2,
    fun bar hbar ↦ ⟨(hadded bar hbar).1, (hadded bar hbar).2,
      Bar.stored_equals (hnumbers bar (hadded bar hbar).1)⟩⟩

namespace Sample

/-- The third and the fourth day of the week are written. -/
def middle : List Call :=
  [.write .raise ⟨7⟩ [bar ⟨7⟩ 2 10, bar ⟨7⟩ 3 20]]

theorem hasUnsignedDays_middle : ∀ call ∈ middle, call.HasUnsignedDays := by
  simp [middle, Call.HasDays, bar]
  decide

/-- The day before the stored span, a day inside it, and one after it that leaves out sessions. -/
def around : List Bar :=
  [bar ⟨7⟩ 1 30, bar ⟨7⟩ 3 40, bar ⟨7⟩ 8 50]

end Sample

theorem writeBars_stores_the_day_before :
    let archive := run Sample.weekdays Sample.middle .empty
    let written := Writer.writeBars Sample.weekdays .warn ⟨7⟩ Sample.around archive
    archive.store.rowCount = 2 ∧
      (∃ dropped, written.1 = .ok (.written ⟨7⟩ 1 dropped)) ∧
      written.2.store.rows.Perm (archive.store.rows ++ [(Sample.bar ⟨7⟩ 1 30).stored]) := by
  have hrows : (run Sample.weekdays Sample.middle .empty).store.rowCount = 2 := by cbv
  have hadded : Writer.admitted Sample.weekdays ⟨7⟩
      (((run Sample.weekdays Sample.middle .empty).store.assetRows ⟨7⟩).map Bar.day)
      Sample.around = [Sample.bar ⟨7⟩ 1 30] := by
    cbv
  obtain ⟨-, hresult, hperm, -⟩ := writeBars_stores_admitted Sample.isLawfulOn_weekdays
    Sample.middle Sample.hasUnsignedDays_middle (by decide : Behavior.warn ≠ .raise) ⟨7⟩
    Sample.around (by decide) (by decide)
  rw [hadded] at hresult hperm
  exact ⟨hrows, hresult, hperm⟩

end DailyBars
