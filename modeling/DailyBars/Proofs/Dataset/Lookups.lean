import DailyBars.Proofs.Dataset.Tapes
import DailyBars.Proofs.Reader.Lookups
import Mathlib

/-!
# Single values of a dataset

After any calls on a dataset with a lawful calendar, the value of an asset on a day is what is
stored for exactly that asset and day, and a lookup that fails says the first thing that is wrong:
no such session, no such asset, a day before its first one or after its last one. **No lookup fails
for any other reason**, and what is found is what every range read of the day shows as well.
-/

namespace DailyBars

/-- **A single value is found exactly where there is one**, and else the failure says why not. -/
theorem value_outcome_iff {calendar : Calendar} (hcalendar : calendar.IsLawful) (calls : List Call)
    (hdays : ∀ call ∈ calls, call.HasUnsignedDays) (threshold : Nat) (asset : AssetId) (day : Day)
    (field : Field) :
    let archive := run calendar calls .empty
    let store := archive.store
    let rows := store.assetRows asset
    let value := ((Reader.value ⟨store, calendar, threshold⟩ asset day field).run archive.cache).1
    let row := ((Reader.rowOf ⟨store, calendar, threshold⟩ asset day).run archive.cache).1
    (value = .error (.noDataOnDate day) ↔ ¬store.HasSession calendar day) ∧
    (store.HasSession calendar day →
      (value = .error (.noDataForAsset asset) ↔ rows = []) ∧
      (rows ≠ [] →
        (value = .error (.noDataBeforeDate asset day) ↔ ∀ bar ∈ rows, day < bar.day) ∧
        (value = .error (.noDataAfterDate asset day) ↔ ∀ bar ∈ rows, bar.day < day) ∧
        (¬(∀ bar ∈ rows, day < bar.day) → ¬(∀ bar ∈ rows, bar.day < day) →
          ∃ bar ∈ rows, bar.day = day ∧
            value = .ok (field.present (bar.value field)) ∧
            row = .ok (store.rowsBefore asset day) ∧
            ∀ limit fields start stop assets, start ≤ day → day ≤ stop →
              ∃ tapes, ((Reader.load ⟨store, calendar, limit⟩ fields start stop assets).run
                  archive.cache).1 = .ok tapes ∧
                tapes.map Tape.field = fields ∧
                ∀ tape ∈ tapes, tape.field = field → day ∈ tape.days ∧
                  ∀ i col, tape.days[i]? = some day → assets[col]? = some asset →
                    tape.get? i col = some (field.present (bar.value field))))) := by
  intro archive store rows value row
  have hlawful := hcalendar.isLawfulOn Day.IsUnsigned
  have hcontiguous : store.IsContiguous calendar :=
    isContiguous_run_empty hlawful hdays
  have hcoherent : archive.cache.IsCoherent calendar store :=
    isCoherent_run_empty calendar calls
  have hlookup : Reader.Lookup calendar store asset day row :=
    Reader.lookup_rowOf ⟨store, calendar, threshold⟩ hcontiguous hlawful hcoherent asset day
  have hfails : ∀ error, value = .error error ↔ row = .error error :=
    Reader.value_eq_error_iff ⟨store, calendar, threshold⟩ hcontiguous hlawful hcoherent asset day
      field
  refine ⟨(hfails _).trans hlookup.noDataOnDate_iff, fun hday ↦
    ⟨(hfails _).trans (hlookup.noDataForAsset_iff hday), fun hne ↦
      ⟨(hfails _).trans (hlookup.noDataBeforeDate_iff hday hne),
        (hfails _).trans (hlookup.noDataAfterDate_iff hday hne), fun hbefore hafter ↦ ?_⟩⟩⟩
  obtain ⟨bar, hbar, rfl, hrow⟩ := hlookup.exists_found hday hne hbefore hafter
  obtain ⟨hstored, rfl⟩ := Store.mem_assetRows.1 hbar
  refine ⟨bar, hbar, rfl, Reader.value_of_mem ⟨store, calendar, threshold⟩ hcontiguous hlawful
    hcoherent hstored field, hrow, fun limit fields start stop assets hstart hstop ↦ ?_⟩
  obtain ⟨tapes, hload, hfields, htapes⟩ := Reader.exists_load_of_mem hcontiguous hcalendar
    hcoherent hstored limit fields hstart hstop assets
  refine ⟨tapes, hload, hfields, fun tape htape hfield ↦ ?_⟩
  rw [← hfield]
  exact htapes tape htape

theorem value_outcome_of_writes :
    let archive := run Sample.twoSessions Sample.writes .empty
    let reader : Reader := ⟨archive.store, Sample.twoSessions, 1⟩
    archive.store.rowCount = 2 ∧
      ((reader.value ⟨7⟩ (Sample.day 5) .volume).run archive.cache).1 =
        .error (.noDataOnDate (Sample.day 5)) ∧
      ∃ bar ∈ archive.store.assetRows ⟨7⟩, bar.day = Sample.day 1 ∧
        ((reader.value ⟨7⟩ (Sample.day 1) .volume).run archive.cache).1 =
          .ok (Field.volume.present (bar.value .volume)) := by
  have hcount : (run Sample.twoSessions Sample.writes .empty).store.rowCount = 2 := by cbv
  have hrows : (run Sample.twoSessions Sample.writes .empty).store.assetRows ⟨7⟩ =
      [Sample.bar ⟨7⟩ 0 10, Sample.bar ⟨7⟩ 1 20] := by cbv
  have hcalendar : Sample.twoSessions.IsLawful := Calendar.isLawful_ofSessions _ _
  have hspec := value_outcome_iff hcalendar Sample.writes Sample.hasUnsignedDays_writes 1 ⟨7⟩
  refine ⟨hcount, (hspec (Sample.day 5) .volume).1.2 fun h ↦ ?_, ?_⟩
  · have hno : Sample.twoSessions.isSession (Sample.day 5) = false := by cbv
    exact absurd (hno.symm.trans h.isSession) Bool.false_ne_true
  · have hmem : Sample.bar ⟨7⟩ 1 20 ∈ (run Sample.twoSessions Sample.writes .empty).store.rows := by
      have hlast : Sample.bar ⟨7⟩ 1 20 ∈
          (run Sample.twoSessions Sample.writes .empty).store.assetRows ⟨7⟩ := by
        rw [hrows]
        exact List.mem_cons_of_mem _ List.mem_cons_self
      exact (Store.mem_assetRows.1 hlast).1
    have hsession : Sample.twoSessions.isSession (Sample.day 1) = true := by cbv
    obtain ⟨bar, hbar, hday, hvalue, -⟩ := (((hspec (Sample.day 1) .volume).2
      ⟨hsession, ⟨_, hmem, le_refl _⟩, _, hmem, le_refl _⟩).2
        (by rw [hrows]; exact List.cons_ne_nil _ _)).2.2 (by rw [hrows]; decide)
        (by rw [hrows]; decide)
    exact ⟨bar, hbar, hday, hvalue⟩

end DailyBars
