import DailyBars.Proofs.Dataset.Runs
import DailyBars.Proofs.Reader.Alignment
import Mathlib

/-!
# A dataset under another calendar

A store says nothing of the calendar that it was written with, and may be opened with another one,
say after the holidays were corrected. The index then looks up **the first day of each asset and no
other**: it fails exactly if one of them is no session, and where it does not fail an asset is
aligned exactly if its days are a run of the calendar that it is read with.

So an index is no proof of alignment. A day that is no session any more, or a new one, inside the
span of an asset moves all later rows of the asset to other sessions
(`DailyBars.exists_index_not_aligned`).
-/

namespace DailyBars

/-- **What an index over another calendar says**: it fails at a first day that is no session, and
else it is aligned for the assets whose days are a run of that calendar, and for no others. -/
theorem index_under_other_calendar {written other : Calendar}
    (hwritten : written.IsLawfulOn Day.IsUnsigned) (hother : other.IsLawfulOn Day.IsUnsigned)
    (calls : List Call) (hdays : ∀ call ∈ calls, call.HasUnsignedDays) (threshold : Nat)
    (asked : List (Nat × Query)) :
    let store := (run written calls .empty).store
    let reader : Reader := ⟨store, other, threshold⟩
    let daysOf := fun asset ↦ (store.assetRows asset).map Bar.day
    let answer := (reader.index.run (Cache.after other store asked)).1
    (reader.sessions.run (Cache.after other store asked)).1 = .ok (store.sessions other) ∧
    (∀ error, answer = .error error → ∃ asset first, (daysOf asset).head? = some first ∧
      other.isSession first = false ∧ error = .calendarLookup asset first other.name) ∧
    ∀ index, answer = .ok index →
      (∀ asset first, (daysOf asset).head? = some first → other.isSession first = true) ∧
      ∀ asset offsets, index.get? asset = some offsets →
        (OffsetIndex.Aligns store (store.sessions other) asset offsets ↔
          other.IsRun (daysOf asset)) := by
  intro store reader daysOf answer
  have hcontiguous : store.IsContiguous written :=
    isContiguous_run_empty hwritten hdays
  have hcoherent := Cache.isCoherent_after other store asked
  have hanswer : answer = store.index other := (reader.computes_index _ hcoherent).1
  have hmem : ∀ {asset first}, (daysOf asset).head? = some first →
      (first ∈ (store.sessions other).toList ↔ other.isSession first = true) := by
    intro asset first hfirst
    obtain ⟨bar, hbar, rfl⟩ := List.mem_map.1 (List.mem_of_head? hfirst)
    rw [Store.mem_sessions_iff hother hcontiguous.unsigned]
    exact ⟨Store.HasSession.isSession, Store.hasSession_of_mem (Store.mem_assetRows.1 hbar).1⟩
  refine ⟨(reader.computes_sessions _ hcoherent).1, fun error herror ↦ ?_, fun index hindex ↦
    ⟨fun asset first hfirst ↦ ?_, fun asset offsets hoffsets ↦ ?_⟩⟩
  · obtain ⟨asset, first, hfirst, hnot, herror⟩ :=
      OffsetIndex.exists_of_build_eq_error (hanswer.symm.trans herror)
    rw [hmem hfirst, Bool.not_eq_true] at hnot
    exact ⟨asset, first, hfirst, hnot, herror⟩
  · have hbuild := hanswer.symm.trans hindex
    have hsome : index.get? asset ≠ none := by
      rw [ne_eq, OffsetIndex.get?_eq_none_iff hbuild, ← List.map_eq_nil_iff (f := Bar.day)]
      exact List.ne_nil_of_mem (List.mem_of_head? hfirst)
    obtain ⟨offsets, hoffsets⟩ := Option.ne_none_iff_exists'.1 hsome
    have hlocates := OffsetIndex.locates_of_get? hbuild hoffsets
    obtain rfl := Option.some_inj.1 (hfirst.symm.trans hlocates.firstDay)
    exact (hmem hfirst).1 (List.mem_of_getElem? hlocates.calendarOffset)
  · exact OffsetIndex.aligns_iff_isRun
      (OffsetIndex.locates_of_get? (hanswer.symm.trans hindex) hoffsets) hcontiguous.unsigned hother
      (hcontiguous.ascending hwritten asset)

namespace Sample

/-- Monday to Wednesday. -/
def threeSessions : Calendar :=
  .ofSessions "XNYS" (DayList.ofList [day 0, day 1, day 2])

/-- The same days, but Tuesday is a holiday. -/
def withoutTuesday : Calendar :=
  .ofSessions "XNYS" (DayList.ofList [day 0, day 2])

/-- All three days are written. -/
def threeDays : List Call :=
  [.write .raise ⟨7⟩ [bar ⟨7⟩ 0 10, bar ⟨7⟩ 1 20, bar ⟨7⟩ 2 30]]

theorem hasUnsignedDays_threeDays : ∀ call ∈ threeDays, call.HasUnsignedDays := by
  simp [threeDays, Call.HasDays, bar]
  decide

end Sample

theorem index_without_tuesday :
    let store := (run Sample.threeSessions Sample.threeDays .empty).store
    let asked := [(1, Query.sessions)]
    store.rowCount = 3 ∧ ∃ index offsets,
      ((Reader.index ⟨store, Sample.withoutTuesday, 1⟩).run
        (Cache.after Sample.withoutTuesday store asked)).1 = .ok index ∧
      index.get? ⟨7⟩ = some offsets ∧
      (OffsetIndex.Aligns store (store.sessions Sample.withoutTuesday) ⟨7⟩ offsets ↔
        Sample.withoutTuesday.IsRun ((store.assetRows ⟨7⟩).map Bar.day)) := by
  have hlawful : ∀ sessions, (Calendar.ofSessions "XNYS" sessions).IsLawfulOn Day.IsUnsigned :=
    fun sessions ↦ (Calendar.isLawful_ofSessions "XNYS" sessions).isLawfulOn _
  obtain ⟨-, -, hindex⟩ := index_under_other_calendar (hlawful _) (hlawful _) Sample.threeDays
    Sample.hasUnsignedDays_threeDays 1 [(1, .sessions)]
  refine ⟨by cbv, ⟨[(⟨7⟩, ⟨0, 2, 0, Sample.day 0, Sample.day 2⟩)], 3⟩, ⟨0, 2, 0, Sample.day 0,
    Sample.day 2⟩, by cbv, by cbv, ?_⟩
  exact (hindex _ (by cbv)).2 _ _ (by cbv)

/-- **An index may be built and not be aligned**: the row of Tuesday is served as that of
Wednesday, which is the second session without Tuesday. -/
theorem exists_index_not_aligned :
    let store := (run Sample.threeSessions Sample.threeDays .empty).store
    let reader : Reader := ⟨store, Sample.withoutTuesday, 1⟩
    Sample.threeSessions.IsLawful ∧ Sample.withoutTuesday.IsLawful ∧
      (∀ call ∈ Sample.threeDays, call.HasUnsignedDays) ∧
      store.rows = [Sample.bar ⟨7⟩ 0 10, Sample.bar ⟨7⟩ 1 20, Sample.bar ⟨7⟩ 2 30] ∧
      (∃ index offsets, (reader.index.run .empty).1 = .ok index ∧
        index.get? ⟨7⟩ = some offsets ∧
        ¬OffsetIndex.Aligns store (store.sessions Sample.withoutTuesday) ⟨7⟩ offsets) ∧
      ∃ tape, ((reader.load [.volume] (Sample.day 0) (Sample.day 2) [⟨7⟩]).run .empty).1 =
          .ok [tape] ∧
        tape.days[1]? = some (Sample.day 2) ∧ tape.get? 1 0 = some (.ofInt 20) := by
  dsimp only
  refine ⟨Calendar.isLawful_ofSessions _ _, Calendar.isLawful_ofSessions _ _,
    Sample.hasUnsignedDays_threeDays, by cbv, ?_, ?_⟩
  · refine ⟨⟨[(⟨7⟩, ⟨0, 2, 0, Sample.day 0, Sample.day 2⟩)], 3⟩, ⟨0, 2, 0, Sample.day 0,
      Sample.day 2⟩, by cbv, by cbv, fun h ↦ ?_⟩
    have hday := h 1 (Sample.bar ⟨7⟩ 1 20) (by cbv)
    have hsession : ((run Sample.threeSessions Sample.threeDays .empty).store.sessions
        Sample.withoutTuesday).toList[1]? = some (Sample.day 2) := by cbv
    rw [hsession, Option.some_inj] at hday
    exact absurd hday (by decide)
  · exact ⟨⟨.volume, [Sample.day 0, Sample.day 2], [#[.ofInt 10, .ofInt 20]]⟩, by cbv, rfl, rfl⟩

end DailyBars
