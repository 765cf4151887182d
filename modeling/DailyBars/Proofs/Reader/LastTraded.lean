import DailyBars.Proofs.Binary64.Nearest
import DailyBars.Proofs.Reader.Values
import Mathlib

/-!
# The last traded day

The walk to the last traded day starts at the session asked for, or at the last one of the asset if
that is earlier, and goes back session by session to the first one of the asset. On a contiguous
store it passes the rows of the asset from last to first, so that **it ends at the last of the first
rows with a volume other than zero** (`Reader.lastTradedFrom_eq`). Where it starts, the first rows
are those up to the day asked for (`Reader.take_eq_filter_le`), and no position is left in what is
found (`Store.lastTraded?`).

A volume is read as a double, and no volume other than zero is rounded to zero.

**Hence every query has one answer on a contiguous store** (`Query.exists_computes_ask`).
-/

namespace DailyBars

/-! ### Traded days -/

/-- The days of the bars with a volume other than zero. -/
def Bar.tradedDays (bars : List Bar) : List Day :=
  (bars.filter fun bar ↦ bar.volume ≠ 0).map Bar.day

theorem Bar.tradedDays_append (xs ys : List Bar) :
    Bar.tradedDays (xs ++ ys) = Bar.tradedDays xs ++ Bar.tradedDays ys := by
  rw [tradedDays, List.filter_append, List.map_append, ← tradedDays, ← tradedDays]

theorem Bar.mem_tradedDays {bars : List Bar} {day : Day} :
    day ∈ Bar.tradedDays bars ↔ ∃ bar ∈ bars, bar.volume ≠ 0 ∧ bar.day = day := by
  simp only [tradedDays, List.mem_map, List.mem_filter, decide_eq_true_eq, and_assoc]

/-- A stored volume is read as zero only if it is zero. -/
theorem Bar.isZero_value_volume (bar : Bar) :
    (bar.value .volume).isZero = decide (bar.volume = 0) := by
  have hvolume : bar.volume = 0 ↔ bar.volume.toInt = 0 := by
    rw [← Int64.toInt_inj]
    rfl
  have hle : bar.volume.toInt.natAbs ≤ 2 ^ 63 := by
    have hlow := bar.volume.le_toInt
    have hhigh := bar.volume.toInt_lt
    omega
  rw [Bool.eq_iff_iff, decide_eq_true_eq, hvolume]
  exact Binary64.isZero_ofInt_iff hle

namespace Store

variable {store : Store} {asset : AssetId} {day last : Day}

/-- The last day of the rows of an asset that is not after a day and has a volume other than
zero. -/
def lastTraded? (store : Store) (asset : AssetId) (day : Day) : Option Day :=
  (Bar.tradedDays ((store.assetRows asset).filter fun bar ↦ bar.day ≤ day)).getLast?

theorem mem_tradedDays : last ∈
    Bar.tradedDays ((store.assetRows asset).filter fun bar ↦ bar.day ≤ day) ↔
      ∃ bar ∈ store.assetRows asset, bar.day ≤ day ∧ bar.volume ≠ 0 ∧ bar.day = last := by
  simp only [Bar.mem_tradedDays, List.mem_filter, decide_eq_true_eq, and_assoc]

/-- Where the rows are in the order of days, the last of the days is the latest. -/
theorem lastTraded?_eq_some_iff
    (hdays : ((store.assetRows asset).map Bar.day).Pairwise (· < ·)) :
    store.lastTraded? asset day = some last ↔
      (∃ bar ∈ store.assetRows asset, bar.day ≤ day ∧ bar.volume ≠ 0 ∧ bar.day = last) ∧
        ∀ bar ∈ store.assetRows asset, bar.day ≤ day → bar.volume ≠ 0 → bar.day ≤ last := by
  have hascending : (Bar.tradedDays ((store.assetRows asset).filter fun bar ↦
      bar.day ≤ day)).Pairwise (· < ·) :=
    hdays.sublist (((List.filter_sublist).trans List.filter_sublist).map Bar.day)
  rw [lastTraded?]
  constructor
  · intro hlast
    refine ⟨mem_tradedDays.1 (List.mem_of_getLast? hlast), fun bar hbar hle hvolume ↦ ?_⟩
    exact Day.le_getLast_of_ascending hascending hlast (mem_tradedDays.2 ⟨bar, hbar, hle, hvolume,
      rfl⟩)
  · rintro ⟨hmem, hlatest⟩
    have hmem := mem_tradedDays.2 hmem
    obtain ⟨first, other, -, hother⟩ := Calendar.exists_ends (List.ne_nil_of_mem hmem)
    obtain ⟨bar, hbar, hle, hvolume, rfl⟩ := mem_tradedDays.1 (List.mem_of_getLast? hother)
    rw [hother, le_antisymm (hlatest bar hbar hle hvolume)
      (Day.le_getLast_of_ascending hascending hother hmem)]

theorem lastTraded?_eq_none_iff : store.lastTraded? asset day = none ↔
    ∀ bar ∈ store.assetRows asset, bar.day ≤ day → bar.volume = 0 := by
  rw [lastTraded?, List.getLast?_eq_none_iff, List.eq_nil_iff_forall_not_mem]
  constructor
  · intro hnone bar hbar hle
    by_contra hvolume
    exact hnone bar.day (mem_tradedDays.2 ⟨bar, hbar, hle, hvolume, rfl⟩)
  · intro hall last hlast
    obtain ⟨bar, hbar, hle, hvolume, -⟩ := mem_tradedDays.1 hlast
    exact hvolume (hall bar hbar hle)

end Store

namespace Reader

variable {calendar : Calendar} {store : Store} {asset : AssetId} {day : Day}
  {offsets : AssetOffsets} {cache : Cache} {bar : Bar}

/-! ### The walk -/

section Walk

variable (h : store.IsContiguous calendar) (hcalendar : calendar.IsLawfulOn Day.IsUnsigned)
  (hlocates : OffsetIndex.Locates store (store.sessions calendar) asset offsets)
  (hcache : cache.IsCoherent calendar store)

include h hcalendar hlocates hcache

/-- A step of the walk reads one row of the asset. -/
theorem tradedAt_eq {steps : Nat} (hbar : (store.assetRows asset)[steps]? = some bar) :
    tradedAt store cache (store.sessions calendar) asset offsets day steps =
      .ok (Bar.tradedDays [bar]).getLast? := by
  obtain ⟨hlt, -⟩ := List.getElem?_eq_some_iff.1 hbar
  have hrow : store.rows[offsets.firstRow + steps]? = some bar := by
    rw [hlocates.firstRow, Store.getElem?_rows hlt, hbar]
  have hsession : (store.sessions calendar).get? (offsets.calendarOffset + steps) =
      some bar.day := by
    rw [← DayList.getElem?_toList]
    exact h.getElem?_sessions hcalendar hlocates hbar
  obtain ⟨-, rfl⟩ := Store.mem_assetRows.1 (List.mem_of_getElem? hbar)
  have hstored : storedValue store cache bar.asset bar.day (offsets.firstRow + steps) .volume =
      .ok (bar.value .volume) := storedValue_eq hcache (h.nodup_keys hcalendar) hrow
  rw [tradedAt, hsession]
  dsimp only
  rw [hstored]
  show Except.ok (if (bar.value .volume).isZero then none else some bar.day) = _
  rw [bar.isZero_value_volume]
  by_cases hvolume : bar.volume = 0
  · simp [Bar.tradedDays, hvolume]
  · simp [Bar.tradedDays, hvolume]

/-- **The walk ends at the last of the first rows with a volume other than zero**, and at none if
there is no such row. -/
theorem lastTradedFrom_eq {steps : Nat} (hsteps : steps < (store.assetRows asset).length) :
    lastTradedFrom store cache (store.sessions calendar) asset offsets day steps =
      .ok (Bar.tradedDays ((store.assetRows asset).take (steps + 1))).getLast? := by
  -- One row more is read first, and the rows before it only if it has no volume.
  have htake : ∀ {k : Nat} {bar : Bar}, (store.assetRows asset)[k]? = some bar →
      (Bar.tradedDays ((store.assetRows asset).take (k + 1))).getLast? =
        (Bar.tradedDays [bar]).getLast?.or
          (Bar.tradedDays ((store.assetRows asset).take k)).getLast? := fun hbar ↦ by
    rw [List.take_add_one, hbar, Option.toList_some, Bar.tradedDays_append, List.getLast?_append]
  induction steps with
  | zero =>
    have hbar := List.getElem?_eq_getElem hsteps
    rw [lastTradedFrom, tradedAt_eq h hcalendar hlocates hcache hbar, htake hbar, List.take_zero]
    exact congrArg Except.ok Option.or_none.symm
  | succ steps ih =>
    have hbar := List.getElem?_eq_getElem hsteps
    rw [lastTradedFrom, tradedAt_eq h hcalendar hlocates hcache hbar, htake hbar,
      ih (Nat.lt_of_succ_lt hsteps)]
    cases (Bar.tradedDays [(store.assetRows asset)[steps + 1]]).getLast? with
    | none => rfl
    | some session => rfl

end Walk

/-! ### Where the walk starts -/

/-- The first members of a list are those with a property that no later one has. -/
theorem take_eq_filter {α : Type} {p : α → Bool} {list : List α} {n : Nat}
    (h : ∀ k a, list[k]? = some a → (p a = true ↔ k < n)) : list.take n = list.filter p := by
  induction list generalizing n with
  | nil => rw [List.take_nil, List.filter_nil]
  | cons first rest ih =>
    have hfirst := h 0 first rfl
    cases n with
    | zero =>
      rw [List.take_zero, List.filter_eq_nil_iff.2]
      intro a ha hp
      obtain ⟨k, hk⟩ := List.mem_iff_getElem?.1 ha
      exact absurd ((h k a hk).1 hp) (Nat.not_lt_zero k)
    | succ n =>
      rw [List.take_succ_cons, List.filter_cons_of_pos (hfirst.2 (Nat.succ_pos n)),
        ih fun k a hk ↦ (h (k + 1) a hk).trans Nat.succ_lt_succ_iff]

/-- **The rows that the walk passes are those up to the day asked for**: their sessions are not
further from the first one than the session of that day. -/
theorem take_eq_filter_le (h : store.IsContiguous calendar)
    (hcalendar : calendar.IsLawfulOn Day.IsUnsigned)
    (hlocates : OffsetIndex.Locates store (store.sessions calendar) asset offsets) {position : Nat}
    (hday : (store.sessions calendar).toList[position]? = some day)
    (hstart : offsets.calendarOffset ≤ position) :
    (store.assetRows asset).take (min position offsets.calendarEnd - offsets.calendarOffset + 1) =
      (store.assetRows asset).filter fun bar ↦ bar.day ≤ day := by
  have hsessions := (store.sessions calendar).ascending
  refine take_eq_filter fun k bar hbar ↦ ?_
  obtain ⟨hlt, -⟩ := List.getElem?_eq_some_iff.1 hbar
  have hsession := h.getElem?_sessions hcalendar hlocates hbar
  have hcount : k < min position offsets.calendarEnd - offsets.calendarOffset + 1 ↔
      offsets.calendarOffset + k ≤ position := by
    have hrows := hlocates.firstRow_add
    rw [AssetOffsets.calendarEnd]
    omega
  rw [hcount, decide_eq_true_eq]
  exact ⟨Day.le_of_getElem?_le hsessions hsession hday,
    Day.getElem?_le_of_le hsessions hsession hday⟩

/-! ### One answer for each query -/

/-- **The answer is the last day that was traded on**, for an asset with rows and a session of the
dataset. -/
theorem computes_lastTraded (reader : Reader) (h : reader.store.IsContiguous reader.calendar)
    (hcalendar : reader.calendar.IsLawfulOn Day.IsUnsigned) (asset : AssetId) (day : Day) :
    Cached.Computes reader.calendar reader.store (reader.lastTraded asset day)
      (if (reader.store.assetRows asset).isEmpty then .error (.noDataForAsset asset)
        else .ok (if (reader.store.sessions reader.calendar).contains day then
          reader.store.lastTraded? asset day else none)) := by
  obtain ⟨index, hindex⟩ := h.exists_index hcalendar
  have hcomputes := reader.computes_index
  rw [hindex] at hcomputes
  refine reader.computes_sessions.then (hcomputes.then (Cached.answers_get fun cache hcache ↦ ?_))
  cases hoffsets : index.get? asset with
  | none =>
    rw [(OffsetIndex.get?_eq_none_iff hindex).1 hoffsets]
    exact Cached.answers_lift rfl
  | some offsets =>
    have hlocates := OffsetIndex.locates_of_get? hindex hoffsets
    have hrows : (reader.store.assetRows asset).isEmpty = false :=
      List.isEmpty_eq_false_iff.2 (List.ne_nil_of_length_pos hlocates.length_pos)
    rw [hrows, if_neg Bool.false_ne_true]
    cases hposition : (reader.store.sessions reader.calendar).indexOf? day with
    | none =>
      rw [DayList.contains, hposition]
      exact Cached.answers_pure rfl
    | some position =>
      have hday := DayList.indexOf?_eq_some_iff.1 hposition
      rw [DayList.contains, hposition, Option.isSome_some, if_pos rfl]
      dsimp only
      by_cases hbefore : position < offsets.calendarOffset
      · have hnone : reader.store.lastTraded? asset day = none := by
          rw [Store.lastTraded?_eq_none_iff]
          intro bar hbar hle
          exact absurd (lt_of_position_lt h hcalendar hlocates hday hbefore bar hbar)
            (not_lt.2 hle)
        rw [if_pos hbefore, hnone]
        exact Cached.answers_pure rfl
      · have hsteps : min position offsets.calendarEnd - offsets.calendarOffset <
            (reader.store.assetRows asset).length := by
          have hcount := hlocates.firstRow_add
          rw [AssetOffsets.calendarEnd]
          omega
        rw [if_neg hbefore, lastTradedFrom_eq h hcalendar hlocates hcache hsteps,
          take_eq_filter_le h hcalendar hlocates hday (Nat.not_lt.1 hbefore)]
        exact Cached.computes_lift _

end Reader

/-- **Every query has one answer on a contiguous store**, whatever is cached. -/
theorem Query.exists_computes_ask (reader : Reader) (query : Query)
    (h : reader.store.IsContiguous reader.calendar)
    (hcalendar : reader.calendar.IsLawfulOn Day.IsUnsigned) :
    ∃ result, Cached.Computes reader.calendar reader.store (query.ask reader) result := by
  cases query with
  | sessions => exact ⟨_, reader.computes_sessions⟩
  | index => exact ⟨_, reader.computes_index⟩
  | load fields start stop assets =>
    exact ⟨_, reader.computes_load (h.nodup_keys hcalendar) fields start stop assets⟩
  | value asset day field => exact ⟨_, reader.computes_value h hcalendar asset day field⟩
  | rowOf asset day => exact ⟨_, reader.computes_rowOf asset day⟩
  | lastTraded asset day => exact ⟨_, reader.computes_lastTraded h hcalendar asset day⟩
  | currencyCodes assets => exact ⟨_, reader.computes_currencyCodes assets⟩
  | firstTradingDay => exact ⟨_, reader.computes_sessions.map DayList.first?⟩
  | lastAvailableDay => exact ⟨_, reader.computes_sessions.map DayList.last?⟩

end DailyBars
