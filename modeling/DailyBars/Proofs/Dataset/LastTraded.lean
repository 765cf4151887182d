import DailyBars.Proofs.Dataset.Coherence
import DailyBars.Proofs.Dataset.Tapes
import Mathlib

/-!
# The last traded day of an asset in a dataset

After any calls on a dataset with a lawful calendar, an asset with stored rows is **always
answered**: with its latest day on or before the day asked for that has a volume other than zero, if
that day is a session of the dataset, and with none otherwise. It makes no difference whether the
day lies within the span of the asset, or which columns the calls have left in the cache.
-/

namespace DailyBars

/-- **The last traded day is the latest stored day with a volume other than zero**, on or before a
session of the dataset. -/
theorem lastTraded_outcome {calendar : Calendar} (hcalendar : calendar.IsLawful)
    (calls : List Call) (hdays : ∀ call ∈ calls, call.HasUnsignedDays) (threshold : Nat)
    (asset : AssetId) (day : Day) :
    let archive := run calendar calls .empty
    let store := archive.store
    let rows := store.assetRows asset
    let answer := ((Reader.lastTraded ⟨store, calendar, threshold⟩ asset day).run archive.cache).1
    (rows = [] → answer = .error (.noDataForAsset asset)) ∧
    (rows ≠ [] →
      (¬store.HasSession calendar day → answer = .ok none) ∧
      (store.HasSession calendar day → ∃ found, answer = .ok found ∧
        (∀ last, found = some last ↔
          (∃ bar ∈ rows, bar.day ≤ day ∧ bar.volume ≠ 0 ∧ bar.day = last) ∧
            ∀ bar ∈ rows, bar.day ≤ day → bar.volume ≠ 0 → bar.day ≤ last) ∧
        (found = none ↔ ∀ bar ∈ rows, bar.day ≤ day → bar.volume = 0))) := by
  intro archive store rows answer
  have hlawful := hcalendar.isLawfulOn Day.IsUnsigned
  have hcontiguous : store.IsContiguous calendar := isContiguous_run_empty hlawful hdays
  have hanswer : answer = if rows.isEmpty then .error (.noDataForAsset asset)
      else .ok (if (store.sessions calendar).contains day then store.lastTraded? asset day
        else none) :=
    (Reader.computes_lastTraded ⟨store, calendar, threshold⟩ hcontiguous hlawful asset day
      archive.cache (isCoherent_run_empty calendar calls)).1
  have hsession :
      (store.sessions calendar).contains day = true ↔ store.HasSession calendar day := by
    rw [DayList.contains_iff, Store.mem_sessions_iff hlawful hcontiguous.unsigned]
  refine ⟨fun hnone ↦ ?_, fun hne ↦ ⟨fun hday ↦ ?_, fun hday ↦ ?_⟩⟩
  · rw [hanswer, hnone, List.isEmpty_nil, if_pos rfl]
  · rw [hanswer, if_neg (by simpa using hne), if_neg (hsession.not.2 hday)]
  · rw [hanswer, if_neg (by simpa using hne), if_pos (hsession.2 hday)]
    exact ⟨_, rfl, fun _ ↦ Store.lastTraded?_eq_some_iff (hcontiguous.ascending hlawful asset),
      Store.lastTraded?_eq_none_iff⟩

namespace Sample

/-- A day with a negative volume and one without volume; then the volumes are read as a column. -/
def quietDay : List Call :=
  [.write .raise ⟨7⟩ [bar ⟨7⟩ 0 (-10), bar ⟨7⟩ 1 0], .ask 0 (.load [.volume] (day 0) (day 1) [⟨7⟩])]

theorem hasUnsignedDays_quietDay : ∀ call ∈ quietDay, call.HasUnsignedDays := by
  simp [quietDay, Call.HasDays, bar]
  decide

end Sample

theorem lastTraded_quietDay :
    let archive := run Sample.twoSessions Sample.quietDay .empty
    archive.store.assetRows ⟨7⟩ = [Sample.bar ⟨7⟩ 0 (-10), Sample.bar ⟨7⟩ 1 0] ∧
      (archive.cache.columns .volume).isSome = true ∧
      ((Reader.lastTraded ⟨archive.store, Sample.twoSessions, 1⟩ ⟨7⟩ (Sample.day 1)).run
        archive.cache).1 = .ok (some (Sample.day 0)) := by
  have hrows : (run Sample.twoSessions Sample.quietDay .empty).store.assetRows ⟨7⟩ =
      [Sample.bar ⟨7⟩ 0 (-10), Sample.bar ⟨7⟩ 1 0] := by cbv
  have hcalendar : Sample.twoSessions.IsLawful := Calendar.isLawful_ofSessions _ _
  obtain ⟨-, houtcome⟩ := lastTraded_outcome hcalendar Sample.quietDay
    Sample.hasUnsignedDays_quietDay 1 ⟨7⟩ (Sample.day 1)
  have hmem : Sample.bar ⟨7⟩ 1 0 ∈
      (run Sample.twoSessions Sample.quietDay .empty).store.assetRows ⟨7⟩ := by
    rw [hrows]
    exact List.mem_cons_of_mem _ List.mem_cons_self
  have hsession : (run Sample.twoSessions Sample.quietDay .empty).store.HasSession
      Sample.twoSessions (Sample.day 1) :=
    Store.hasSession_of_mem (Store.mem_assetRows.1 hmem).1 (by cbv)
  obtain ⟨found, hanswer, hfound, -⟩ := (houtcome (List.ne_nil_of_mem hmem)).2 hsession
  refine ⟨hrows, by cbv, hanswer.trans (congrArg Except.ok ((hfound _).2 ?_))⟩
  rw [hrows]
  decide

end DailyBars
