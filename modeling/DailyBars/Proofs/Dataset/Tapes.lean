import DailyBars.Proofs.Binary64.Nearest
import DailyBars.Proofs.Dataset.Coherence
import DailyBars.Proofs.Reader.Placement
import Mathlib

/-!
# The tapes of a dataset

After any calls on a dataset with a lawful calendar, a range read succeeds, and its tapes say
exactly what is stored: each cell is the served value of the bar of its asset on its day, or the
missing value of the field if there is no such bar. **Nothing is assumed of the range and of the
assets**, which may be inverted, unknown or repeated.
-/

namespace DailyBars

/-- The volume of a bar is served as the nearest double. -/
theorem Bar.isNearest_volume (bar : Bar) :
    (bar.value .volume).IsNearest bar.volume.toInt := by
  refine Binary64.ofInt_isNearest ?_
  have hlow := bar.volume.le_toInt
  have hhigh := bar.volume.toInt_lt
  omega

namespace Reader

variable {calendar : Calendar} {store : Store}

/-- On a contiguous store a range read has tapes for an answer. -/
theorem exists_tapes (h : store.IsContiguous calendar) (hcalendar : calendar.IsLawful)
    (fields : List Field) (start stop : Day) (assets : List AssetId) :
    ∃ index plan, store.index calendar = .ok index ∧
      Reader.plan calendar (store.sessions calendar) index start stop assets = .ok plan ∧
      plan.days = calendar.sessionsIn start stop ∧
      (∃ sliceOf : AssetId → Option RowSlice, plan.slices = assets.map sliceOf) ∧
      tapes calendar store fields start stop assets =
        .ok (fields.map fun field ↦ bulkTape plan field (store.column field).toArray) := by
  obtain ⟨index, hindex⟩ := h.exists_index (hcalendar.isLawfulOn _)
  rcases plan_cases calendar (store.sessions calendar) index start stop assets
    (hcalendar.ascending start stop) with ⟨-, hplan⟩ | ⟨first, last, low, high, -, hplan⟩
  · refine ⟨index, _, hindex, hplan, rfl, ⟨_, rfl⟩, ?_⟩
    rw [tapes, hindex]
    exact Result.bind_eq_ok_iff.2 ⟨index, rfl, Result.bind_eq_ok_iff.2 ⟨_, hplan, rfl⟩⟩
  · refine ⟨index, _, hindex, hplan, rfl, ⟨_, rfl⟩, ?_⟩
    rw [tapes, hindex]
    exact Result.bind_eq_ok_iff.2 ⟨index, rfl, Result.bind_eq_ok_iff.2 ⟨_, hplan, rfl⟩⟩

/-- **A range read places what is stored**, from any coherent cache and with any threshold. -/
theorem exists_load (h : store.IsContiguous calendar) (hcalendar : calendar.IsLawful)
    {cache : Cache} (hcache : cache.IsCoherent calendar store) (threshold : Nat)
    (fields : List Field) (start stop : Day) (assets : List AssetId) :
    ∃ tapes, ((Reader.load ⟨store, calendar, threshold⟩ fields start stop assets).run cache).1 =
        .ok tapes ∧
      tapes.map Tape.field = fields ∧
      ∀ tape ∈ tapes, tape.days = calendar.sessionsIn start stop ∧
        tape.columns.length = assets.length ∧
        (∀ column ∈ tape.columns, column.size = tape.days.length) ∧
        ∀ row col day asset, tape.days[row]? = some day → assets[col]? = some asset →
          tape.get? row col = some
            ((store.value? asset day tape.field).elim tape.field.missing tape.field.present) := by
  obtain ⟨index, plan, hindex, hplan, hplanDays, ⟨sliceOf, hslices⟩, htapes⟩ :=
    exists_tapes h hcalendar fields start stop assets
  have hload := (computes_load ⟨store, calendar, threshold⟩
    (h.nodup_keys (hcalendar.isLawfulOn Day.IsUnsigned)) fields start stop assets cache hcache).1
  refine ⟨_, hload.trans htapes, ?_, fun tape htape ↦ ?_⟩
  · rw [List.map_map]
    exact List.map_id fields
  obtain ⟨field, -, rfl⟩ := List.mem_map.1 htape
  refine ⟨hplanDays, ?_, fun _ hcolumn ↦ size_of_mem_columns hcolumn,
    fun row col day asset hrow hcol ↦ ?_⟩
  · rw [columns_bulkTape hslices, List.length_map]
  · exact get?_bulkTape h hcalendar hindex hplan (by rw [← hplanDays]; exact hrow) hcol

/-- A stored bar is shown by every range read of its day. -/
theorem exists_load_of_mem (h : store.IsContiguous calendar) (hcalendar : calendar.IsLawful)
    {cache : Cache} (hcache : cache.IsCoherent calendar store) {bar : Bar}
    (hbar : bar ∈ store.rows) (threshold : Nat) (fields : List Field) {start stop : Day}
    (hstart : start ≤ bar.day) (hstop : bar.day ≤ stop) (assets : List AssetId) :
    ∃ tapes, ((Reader.load ⟨store, calendar, threshold⟩ fields start stop assets).run cache).1 =
        .ok tapes ∧
      tapes.map Tape.field = fields ∧
      ∀ tape ∈ tapes, bar.day ∈ tape.days ∧
        ∀ row col, tape.days[row]? = some bar.day → assets[col]? = some bar.asset →
          tape.get? row col = some (tape.field.present (bar.value tape.field)) := by
  have hlawful := hcalendar.isLawfulOn Day.IsUnsigned
  obtain ⟨tapes, hload, hfields, htapes⟩ :=
    exists_load h hcalendar hcache threshold fields start stop assets
  refine ⟨tapes, hload, hfields, fun tape htape ↦ ?_⟩
  obtain ⟨hdays, -, -, hcells⟩ := htapes tape htape
  refine ⟨?_, fun row col hrow hcol ↦ ?_⟩
  · rw [hdays, hcalendar.mem_iff]
    exact ⟨hstart, hstop, h.isSession hlawful hbar⟩
  · rw [hcells row col bar.day bar.asset hrow hcol,
      Store.value?_eq_some (h.nodup_keys hlawful) hbar]
    rfl

end Reader

/-- **A range read places every stored bar of the range, and nothing else**, one tape for each
field, after any calls on the dataset and with any threshold. -/
theorem load_places_bars {calendar : Calendar} (hcalendar : calendar.IsLawful) (calls : List Call)
    (hdays : ∀ call ∈ calls, call.HasUnsignedDays) (threshold : Nat) (fields : List Field)
    (start stop : Day) (assets : List AssetId) :
    let archive := run calendar calls .empty
    ∃ tapes, ((Reader.load ⟨archive.store, calendar, threshold⟩ fields start stop assets).run
        archive.cache).1 = .ok tapes ∧
      tapes.map Tape.field = fields ∧
      (∀ tape ∈ tapes, tape.days = calendar.sessionsIn start stop ∧
        tape.columns.length = assets.length ∧
        (∀ column ∈ tape.columns, column.size = tape.days.length) ∧
        ∀ row col day asset, tape.days[row]? = some day → assets[col]? = some asset →
          (∀ bar ∈ archive.store.rows, bar.asset = asset → bar.day = day →
            tape.get? row col = some (tape.field.present (bar.value tape.field))) ∧
          ((∀ bar ∈ archive.store.rows, bar.asset = asset → bar.day ≠ day) →
            tape.get? row col = some tape.field.missing)) ∧
      ∀ bar ∈ archive.store.rows, (bar.value .volume).IsNearest bar.volume.toInt := by
  intro archive
  have hlawful := hcalendar.isLawfulOn Day.IsUnsigned
  have hcontiguous : archive.store.IsContiguous calendar :=
    isContiguous_run_empty hlawful hdays
  have hcoherent : archive.cache.IsCoherent calendar archive.store :=
    isCoherent_run_empty calendar calls
  have hkeys := hcontiguous.nodup_keys hlawful
  obtain ⟨tapes, hload, hfields, htapes⟩ :=
    Reader.exists_load hcontiguous hcalendar hcoherent threshold fields start stop assets
  refine ⟨tapes, hload, hfields, fun tape htape ↦ ?_, fun bar _ ↦ bar.isNearest_volume⟩
  obtain ⟨htapeDays, hlength, hsizes, hcells⟩ := htapes tape htape
  refine ⟨htapeDays, hlength, hsizes, fun row col day asset hrow hcol ↦ ?_⟩
  rw [hcells row col day asset hrow hcol]
  constructor
  · rintro bar hbar rfl rfl
    rw [Store.value?_eq_some hkeys hbar]
    rfl
  · intro hnone
    rw [Store.value?_eq_none hnone]
    rfl

namespace Sample

/-- A calendar of two sessions. -/
def twoSessions : Calendar :=
  .ofSessions "XNYS" (DayList.ofList [day 0, day 1])

end Sample

theorem load_places_writes :
    let archive := run Sample.twoSessions Sample.writes .empty
    archive.store.rowCount = 2 ∧
      ∃ tapes, ((Reader.load ⟨archive.store, Sample.twoSessions, 1⟩ [.volume, .closePrice]
          (Sample.day 0) (Sample.day 9) [⟨8⟩, ⟨7⟩, ⟨7⟩]).run archive.cache).1 = .ok tapes ∧
        tapes.map Tape.field = [.volume, .closePrice] := by
  have hrows : (run Sample.twoSessions Sample.writes .empty).store.rowCount = 2 := by cbv
  obtain ⟨tapes, hload, hfields, -⟩ := load_places_bars (Calendar.isLawful_ofSessions _ _)
    Sample.writes Sample.hasUnsignedDays_writes 1 [.volume, .closePrice] (Sample.day 0)
    (Sample.day 9) [⟨8⟩, ⟨7⟩, ⟨7⟩]
  exact ⟨hrows, tapes, hload, hfields⟩

end DailyBars
