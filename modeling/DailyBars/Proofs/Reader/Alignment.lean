import DailyBars.Proofs.OffsetIndex.Build
import DailyBars.Proofs.Reader.Coherence
import DailyBars.Proofs.Writer.Contiguous
import Mathlib

/-!
# Alignment

Where the days of an asset are a run, its rows lie on successive sessions of the dataset: `k` rows
after the first row of the asset and `k` sessions after its calendar offset is the same day
(`OffsetIndex.aligns_of_isRun`). This is what makes row numbers and session positions
exchangeable, so that nothing has to be searched. **It is a matter of each asset on its own**, of
no more than its days, and on a contiguous store it holds of all of them.

It comes from ranks. The days of an asset and the sessions of the dataset agree between the first
and the last day of the asset, so both lists move forward together, wherever the dataset itself
begins and ends.
-/

namespace DailyBars

namespace Store

variable {calendar : Calendar} {store : Store} {asset : AssetId} {bar : Bar} {day : Day}

/-! ### The sessions of a dataset -/

/-- A day is a session of the calendar that is neither before all stored days nor after them. -/
structure HasSession (calendar : Calendar) (store : Store) (day : Day) : Prop where
  isSession : calendar.isSession day = true
  exists_le : ∃ bar ∈ store.rows, bar.day ≤ day
  exists_ge : ∃ bar ∈ store.rows, day ≤ bar.day

/-- A stored day is a session of the dataset, if it is one of the calendar. -/
theorem hasSession_of_mem (hbar : bar ∈ store.rows) (hsession : calendar.isSession bar.day = true) :
    store.HasSession calendar bar.day :=
  ⟨hsession, ⟨bar, hbar, le_refl _⟩, bar, hbar, le_refl _⟩

/-- The bounds of stored days in the years 0 to 9999 are the least and the greatest of them. -/
theorem exists_dayBounds (hunsigned : ∀ bar ∈ store.rows, bar.day.IsUnsigned)
    (hne : store.rows ≠ []) :
    ∃ first ∈ store.rows, ∃ last ∈ store.rows, store.dayBounds? = some (first.day, last.day) ∧
      ∀ bar ∈ store.rows, first.day ≤ bar.day ∧ bar.day ≤ last.day := by
  have hsome : store.dayBounds? ≠ none := by
    rwa [dayBounds?, ne_eq, Day.textBounds?_eq_none_iff, List.map_eq_nil_iff]
  obtain ⟨⟨_, _⟩, hbounds⟩ := Option.ne_none_iff_exists'.1 hsome
  obtain ⟨⟨hfirstDay, hleast⟩, hlastDay, hgreatest⟩ := Day.textBounds?_spec hbounds
  obtain ⟨first, hfirst, rfl⟩ := List.mem_map.1 hfirstDay
  obtain ⟨last, hlast, rfl⟩ := List.mem_map.1 hlastDay
  refine ⟨first, hfirst, last, hlast, hbounds, fun bar hbar ↦ ?_⟩
  have hmem := List.mem_map_of_mem (f := Bar.day) hbar
  have hday := hunsigned bar hbar
  exact ⟨(Day.textLe_iff_le (hunsigned first hfirst) hday).1 (hleast _ hmem),
    (Day.textLe_iff_le hday (hunsigned last hlast)).1 (hgreatest _ hmem)⟩

/-- **The sessions of a dataset are those of the calendar from its first to its last day**, whether
or not the calendar is the one that the store was written with. -/
theorem mem_sessions_iff (hcalendar : calendar.IsLawfulOn Day.IsUnsigned)
    (hunsigned : ∀ bar ∈ store.rows, bar.day.IsUnsigned) :
    day ∈ (store.sessions calendar).toList ↔ store.HasSession calendar day := by
  by_cases hnil : store.rows = []
  · rw [sessions, dayBounds?, hnil]
    refine iff_of_false List.not_mem_nil fun h ↦ ?_
    obtain ⟨bar, hbar, -⟩ := h.exists_le
    rw [hnil] at hbar
    cases hbar
  · obtain ⟨first, hfirst, last, hlast, hbounds, hall⟩ := exists_dayBounds hunsigned hnil
    rw [sessions, hbounds, DayList.mem_ofList,
      hcalendar.mem_iff (hunsigned first hfirst) (hunsigned last hlast)]
    constructor
    · rintro ⟨hlow, hhigh, hsession⟩
      exact ⟨hsession, ⟨first, hfirst, hlow⟩, last, hlast, hhigh⟩
    · rintro ⟨hsession, ⟨a, ha, hlow⟩, b, hb, hhigh⟩
      exact ⟨le_trans (hall a ha).1 hlow, le_trans hhigh (hall b hb).2, hsession⟩

/-- **Every stored day is a session of the dataset.** -/
theorem IsContiguous.hasSession (h : store.IsContiguous calendar)
    (hcalendar : calendar.IsLawfulOn Day.IsUnsigned) (hbar : bar ∈ store.rows) :
    store.HasSession calendar bar.day :=
  hasSession_of_mem hbar (h.isSession hcalendar hbar)

theorem IsContiguous.mem_sessions (h : store.IsContiguous calendar)
    (hcalendar : calendar.IsLawfulOn Day.IsUnsigned) (hbar : bar ∈ store.rows) :
    bar.day ∈ (store.sessions calendar).toList :=
  (mem_sessions_iff hcalendar h.unsigned).2 (h.hasSession hcalendar hbar)

theorem IsContiguous.isSession_of_mem_sessions (h : store.IsContiguous calendar)
    (hcalendar : calendar.IsLawfulOn Day.IsUnsigned)
    (hday : day ∈ (store.sessions calendar).toList) : calendar.isSession day = true :=
  ((mem_sessions_iff hcalendar h.unsigned).1 hday).isSession

/-- A session between two sessions of the dataset is one too. -/
theorem IsContiguous.mem_sessions_of_between (h : store.IsContiguous calendar)
    (hcalendar : calendar.IsLawfulOn Day.IsUnsigned) {low high : Day}
    (hlow : low ∈ (store.sessions calendar).toList)
    (hhigh : high ∈ (store.sessions calendar).toList) (hday : low ≤ day) (hday' : day ≤ high)
    (hsession : calendar.isSession day = true) : day ∈ (store.sessions calendar).toList := by
  rw [mem_sessions_iff hcalendar h.unsigned] at hlow hhigh ⊢
  obtain ⟨a, ha, hle⟩ := hlow.exists_le
  obtain ⟨b, hb, hge⟩ := hhigh.exists_ge
  exact ⟨hsession, ⟨a, ha, le_trans hle hday⟩, b, hb, le_trans hday' hge⟩

/-- A contiguous store has an index. -/
theorem IsContiguous.exists_index (h : store.IsContiguous calendar)
    (hcalendar : calendar.IsLawfulOn Day.IsUnsigned) :
    ∃ index, store.index calendar = .ok index :=
  OffsetIndex.exists_build store calendar.name fun _ ↦ h.mem_sessions hcalendar

end Store

/-! ### Rows and sessions -/

namespace OffsetIndex

variable {calendar : Calendar} {store : Store} {asset : AssetId} {offsets : AssetOffsets}

/-- The rows of an asset lie on successive sessions, from the one at its calendar offset on. -/
def Aligns (store : Store) (sessions : DayList) (asset : AssetId) (offsets : AssetOffsets) : Prop :=
  ∀ k bar, (store.assetRows asset)[k]? = some bar →
    sessions.toList[offsets.calendarOffset + k]? = some bar.day

variable (hlocates : Locates store (store.sessions calendar) asset offsets)
  (hunsigned : ∀ bar ∈ store.rows, bar.day.IsUnsigned)
  (hcalendar : calendar.IsLawfulOn Day.IsUnsigned)

include hlocates hunsigned hcalendar

/-- **Rows of an asset and sessions of the dataset move forward together**, if the days of the asset
are a run. -/
theorem aligns_of_isRun (hrun : calendar.IsRun ((store.assetRows asset).map Bar.day)) :
    Aligns store (store.sessions calendar) asset offsets := by
  intro k bar hbar
  have hk : ((store.assetRows asset).map Bar.day)[k]? = some bar.day := by
    rw [List.getElem?_map, hbar, Option.map_some]
  have hends := Store.unsigned_days hunsigned asset
  have hdays := hrun.ascending hcalendar hends
  have hsessions := (store.sessions calendar).ascending
  have hmem : ∀ day ∈ (store.assetRows asset).map Bar.day,
      day ∈ (store.sessions calendar).toList := by
    intro day hday
    obtain ⟨bar, hbar, rfl⟩ := List.mem_map.1 hday
    exact (Store.mem_sessions_iff hcalendar hunsigned).2
      (Store.hasSession_of_mem (Store.mem_assetRows.1 hbar).1 (hrun.isSession hcalendar hends hday))
  have hday := List.mem_of_getElem? hk
  have hfirst := Day.head_le_of_ascending hdays hlocates.firstDay hday
  -- From the first day of the asset up to this one, both lists have the same days.
  have hagree : ∀ other, offsets.firstDay ≤ other → other < bar.day →
      (other ∈ (store.sessions calendar).toList ↔ other ∈ (store.assetRows asset).map Bar.day) := by
    intro other hlow hhigh
    refine ⟨fun hsession ↦ ?_, hmem other⟩
    have hlast := Day.le_getLast_of_ascending hdays hlocates.lastDay hday
    exact hrun.mem hcalendar hends hlocates.firstDay hlocates.lastDay hlow
      (le_trans (le_of_lt hhigh) hlast)
      ((Store.mem_sessions_iff hcalendar hunsigned).1 hsession).isSession
  have hranks := Day.rank_add_rank hsessions hdays hfirst hagree
  have hfirstRow : ((store.assetRows asset).map Bar.day)[0]? = some offsets.firstDay := by
    rw [← List.head?_eq_getElem?]
    exact hlocates.firstDay
  rw [Day.rank_eq_of_getElem? hsessions hlocates.calendarOffset,
    Day.rank_eq_of_getElem? hdays hfirstRow, Day.rank_eq_of_getElem? hdays hk, Nat.add_zero,
    Nat.add_comm] at hranks
  rw [← hranks]
  exact Day.getElem?_rank hsessions (hmem bar.day hday)

/-- The days of an asset are a run, if its rows and the sessions of the dataset move forward
together: a session between its ends has a position between theirs. -/
theorem isRun_of_aligns (hdays : ((store.assetRows asset).map Bar.day).Pairwise (· < ·))
    (h : Aligns store (store.sessions calendar) asset offsets) :
    calendar.IsRun ((store.assetRows asset).map Bar.day) := by
  intro first last hfirst hlast
  have hends := Store.unsigned_days hunsigned asset
  have hsessions := (store.sessions calendar).ascending
  have hfirstMem := List.mem_of_head? hfirst
  have hlastMem := List.mem_of_getLast? hlast
  refine List.Pairwise.eq_of_mem_iff hdays (hcalendar.ascending (hends first hfirstMem)
    (hends last hlastMem)) fun day ↦ ?_
  rw [hcalendar.mem_iff (hends first hfirstMem) (hends last hlastMem)]
  constructor
  · intro hday
    obtain ⟨bar, hbar, rfl⟩ := List.mem_map.1 hday
    obtain ⟨k, hk⟩ := List.mem_iff_getElem?.1 hbar
    refine ⟨Day.head_le_of_ascending hdays hfirst hday,
      Day.le_getLast_of_ascending hdays hlast hday, ?_⟩
    exact ((Store.mem_sessions_iff hcalendar hunsigned).1
      (List.mem_of_getElem? (h k bar hk))).isSession
  · rintro ⟨hlow, hhigh, hsession⟩
    obtain ⟨early, hearly, rfl⟩ := List.mem_map.1 hfirstMem
    obtain ⟨late, hlate, rfl⟩ := List.mem_map.1 hlastMem
    have hday : day ∈ (store.sessions calendar).toList :=
      (Store.mem_sessions_iff hcalendar hunsigned).2
        ⟨hsession, ⟨early, (Store.mem_assetRows.1 hearly).1, hlow⟩, late,
          (Store.mem_assetRows.1 hlate).1, hhigh⟩
    obtain ⟨position, hposition⟩ := List.mem_iff_getElem?.1 hday
    have hstart : (store.sessions calendar).toList[offsets.calendarOffset]? = some early.day := by
      rw [hlocates.calendarOffset, ← hlocates.firstDay, hfirst]
    obtain ⟨n, hn⟩ := List.mem_iff_getElem?.1 hlate
    have hstop := h n late hn
    have hle := Day.le_of_getElem?_le hsessions hstart hposition hlow
    have hge := Day.le_of_getElem?_le hsessions hposition hstop hhigh
    have hlt : position - offsets.calendarOffset < (store.assetRows asset).length := by
      have := (List.getElem?_eq_some_iff.1 hn).1
      omega
    have hbar := List.getElem?_eq_getElem hlt
    have hsame := h _ _ hbar
    rw [Nat.add_sub_cancel' hle, hposition, Option.some_inj] at hsame
    rw [hsame]
    exact List.mem_map_of_mem (List.getElem_mem hlt)

/-- **An asset is aligned exactly if its days are a run** of the calendar that it is read with. -/
theorem aligns_iff_isRun (hdays : ((store.assetRows asset).map Bar.day).Pairwise (· < ·)) :
    Aligns store (store.sessions calendar) asset offsets ↔
      calendar.IsRun ((store.assetRows asset).map Bar.day) :=
  ⟨isRun_of_aligns hlocates hunsigned hcalendar hdays,
    aligns_of_isRun hlocates hunsigned hcalendar⟩

end OffsetIndex

namespace Store

variable {calendar : Calendar} {store : Store} {asset : AssetId} {offsets : AssetOffsets}

/-- On a contiguous store this holds of every asset. -/
theorem IsContiguous.getElem?_sessions (h : store.IsContiguous calendar)
    (hcalendar : calendar.IsLawfulOn Day.IsUnsigned)
    (hlocates : OffsetIndex.Locates store (store.sessions calendar) asset offsets) {k : Nat}
    {bar : Bar} (hbar : (store.assetRows asset)[k]? = some bar) :
    (store.sessions calendar).toList[offsets.calendarOffset + k]? = some bar.day :=
  OffsetIndex.aligns_of_isRun hlocates h.unsigned hcalendar (h.isRun asset) k bar hbar

end Store

end DailyBars
