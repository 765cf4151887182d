import DailyBars.Proofs.Dataset.Chronology
import DailyBars.Proofs.Dataset.OtherCalendar
import DailyBars.Proofs.Reader.Filling
import DailyBars.Proofs.Reader.OldIndex
import Mathlib

/-!
# A dataset with two handles

Handles of one dataset, say in two processes, have the same store and the same calendar, and each a
cache of its own. A write through one of them drops its cache **and not that of the other**, which
goes on with the sessions and the index that it has, and fills in what is absent from the store as
it is by then. So the parts of the second cache are each of the store after some number of calls
(`Cache.ReadAt`), and a column is never older than the index.

What is served is then the row with a number that an older store gives to the asset and the day,
taken from a newer one (`DailyBars.rows_of_other_handle`). **It is the right row exactly if no row
before it was added in between**; an earlier day of the asset, or a lesser asset, moves all rows
after it, and what is served is of another day (`DailyBars.exists_value_of_other_day`).
-/

namespace DailyBars

/-! ### Calls through two handles -/

/-- A call through one of two handles. The second one is only read from. -/
inductive HandleCall where
  | first (call : Call)
  | second (threshold : Nat) (query : Query)

/-- What two handles work on. -/
structure Handles where
  /-- The store, and the cache of the first handle. -/
  archive : Archive
  /-- The cache of the second handle. -/
  cache : Cache

/-- Two new handles of a dataset without bars. -/
def Handles.empty : Handles := ⟨.empty, .empty⟩

namespace HandleCall

/-- All days that a call may store lie in the years 0 to 9999. -/
def HasUnsignedDays : HandleCall → Prop
  | first call => call.HasUnsignedDays
  | second _ _ => True

/-- What a call leaves. -/
def perform (calendar : Calendar) (handles : Handles) : HandleCall → Handles
  | first call => { handles with archive := call.perform calendar handles.archive }
  | second threshold query =>
    { handles with
      cache := ((query.ask ⟨handles.archive.store, calendar, threshold⟩).run handles.cache).2 }

/-- The call, if it is one through the first handle. -/
def first? : HandleCall → Option Call
  | first call => some call
  | second _ _ => none

end HandleCall

/-- What calls leave, made one after the other. -/
def runHandles (calendar : Calendar) (calls : List HandleCall) (handles : Handles) : Handles :=
  calls.foldl (HandleCall.perform calendar) handles

/-- The store after the first calls of some, from an empty one on. -/
def storeAfter (calendar : Calendar) (calls : List HandleCall) (count : Nat) : Store :=
  (runHandles calendar (calls.take count) .empty).archive.store

section

variable {calendar : Calendar} {calls : List HandleCall}

theorem runHandles_concat (calls : List HandleCall) (call : HandleCall) (handles : Handles) :
    runHandles calendar (calls ++ [call]) handles =
      call.perform calendar (runHandles calendar calls handles) := by
  rw [runHandles, List.foldl_append]
  rfl

/-- **The second handle has no part in the store.** -/
theorem archive_runHandles (calls : List HandleCall) (handles : Handles) :
    (runHandles calendar calls handles).archive =
      run calendar (calls.filterMap HandleCall.first?) handles.archive := by
  induction calls generalizing handles with
  | nil => rfl
  | cons call rest ih =>
    cases call with
    | first call => exact ih _
    | second threshold query => exact ih _

theorem storeAfter_length :
    storeAfter calendar calls calls.length = (runHandles calendar calls .empty).archive.store := by
  rw [storeAfter, List.take_length]

theorem storeAfter_concat {count : Nat} (hcount : count ≤ calls.length) (call : HandleCall) :
    storeAfter calendar (calls ++ [call]) count = storeAfter calendar calls count := by
  rw [storeAfter, List.take_append_of_le_length hcount, storeAfter]

theorem isContiguous_storeAfter (hcalendar : calendar.IsLawfulOn Day.IsUnsigned)
    (hdays : ∀ call ∈ calls, call.HasUnsignedDays) (count : Nat) :
    (storeAfter calendar calls count).IsContiguous calendar := by
  rw [storeAfter, archive_runHandles]
  refine isContiguous_run_empty hcalendar fun call hcall ↦ ?_
  obtain ⟨original, horiginal, hfirst⟩ := List.mem_filterMap.1 hcall
  have hunsigned := hdays original (List.mem_of_mem_take horiginal)
  cases original with
  | first call =>
    cases hfirst
    exact hunsigned
  | second threshold query => cases hfirst

/-- **No row is lost from one call to a later one.** -/
theorem rows_storeAfter_sublist {count later : Nat} (hle : count ≤ later) :
    (storeAfter calendar calls count).rows.Sublist (storeAfter calendar calls later).rows := by
  obtain ⟨more, rfl⟩ := Nat.exists_eq_add_of_le hle
  rw [storeAfter, storeAfter, List.take_add, archive_runHandles, archive_runHandles,
    List.filterMap_append, run_append]
  exact (extends_run calendar _ _).rows

end

/-! ### The age of a cache -/

/-- The parts of a cache are of the stores after certain numbers of calls. Columns are cached after
the index only, so they are not older. -/
structure Cache.ReadAt (calendar : Calendar) (calls : List HandleCall) (sessioned indexed : Nat)
    (loaded : Field → Nat) (cache : Cache) : Prop where
  indexed_le : ∀ field, indexed ≤ loaded field
  sessioned_le : sessioned ≤ calls.length
  loaded_le : ∀ field, loaded field ≤ calls.length
  sessions : ∀ sessions, cache.sessions = some sessions →
    sessions = (storeAfter calendar calls sessioned).sessions calendar
  index : ∀ index, cache.index = some index → ∃ sessions, cache.sessions = some sessions ∧
    OffsetIndex.build (storeAfter calendar calls indexed).spans sessions calendar.name = .ok index
  columns : ∀ field column, cache.columns field = some column → cache.index ≠ none ∧
    column = ((storeAfter calendar calls (loaded field)).column field).toArray

namespace Cache

variable {calendar : Calendar} {calls : List HandleCall} {cache : Cache} {sessioned indexed : Nat}
  {loaded : Field → Nat}

theorem readAt_empty (calendar : Calendar) :
    empty.ReadAt calendar [] 0 0 fun _ ↦ 0 where
  indexed_le _ := Nat.le_refl 0
  sessioned_le := Nat.le_refl 0
  loaded_le _ := Nat.le_refl 0
  sessions _ h := by cases h
  index _ h := by cases h
  columns _ _ h := by cases h

theorem ReadAt.indexed_le_length (h : cache.ReadAt calendar calls sessioned indexed loaded) :
    indexed ≤ calls.length :=
  Nat.le_trans (h.indexed_le .volume) (h.loaded_le .volume)

/-- The index is of one older store over the sessions of another. -/
theorem ReadAt.of_indexed (h : cache.ReadAt calendar calls sessioned indexed loaded)
    {sessions : DayList} {index : OffsetIndex} (hindexed : Reader.Indexed sessions index cache) :
    sessions = (storeAfter calendar calls sessioned).sessions calendar ∧
      OffsetIndex.build (storeAfter calendar calls indexed).spans sessions calendar.name =
        .ok index := by
  obtain ⟨_, hsessions, hbuild⟩ := h.index index hindexed.index
  obtain rfl := Option.some_inj.1 (hindexed.sessions.symm.trans hsessions)
  exact ⟨h.sessions sessions hindexed.sessions, hbuild⟩

/-- A further call takes nothing back. -/
theorem ReadAt.concat (h : cache.ReadAt calendar calls sessioned indexed loaded)
    (call : HandleCall) : cache.ReadAt calendar (calls ++ [call]) sessioned indexed loaded := by
  have hlength : calls.length ≤ (calls ++ [call]).length := by simp
  refine ⟨h.indexed_le, Nat.le_trans h.sessioned_le hlength,
    fun field ↦ Nat.le_trans (h.loaded_le field) hlength, ?_, ?_, ?_⟩
  · rw [storeAfter_concat h.sessioned_le]
    exact h.sessions
  · rw [storeAfter_concat h.indexed_le_length]
    exact h.index
  · intro field
    rw [storeAfter_concat (h.loaded_le field)]
    exact h.columns field

/-- **Every read leaves parts of the same age**: those that were there, and all others of the store
as it is. -/
theorem ReadAt.exists_filled (h : cache.ReadAt calendar calls sessioned indexed loaded) :
    ∃ sessioned indexed loaded, ∀ next : Cache,
      cache.Filled calendar (storeAfter calendar calls calls.length) next →
        next.ReadAt calendar calls sessioned indexed loaded := by
  refine ⟨cache.sessions.elim calls.length fun _ ↦ sessioned,
    cache.index.elim calls.length fun _ ↦ indexed,
    fun field ↦ (cache.columns field).elim calls.length fun _ ↦ loaded field,
    fun next hfilled ↦ ?_⟩
  exact {
    indexed_le := fun field ↦ by
      cases hindex : cache.index with
      | some index =>
        cases cache.columns field with
        | none => exact h.indexed_le_length
        | some column => exact h.indexed_le field
      | none =>
        -- Without an index there is no column either.
        cases hcolumn : cache.columns field with
        | none => exact Nat.le_refl _
        | some column => exact absurd hindex (h.columns field column hcolumn).1
    sessioned_le := by
      cases cache.sessions with
      | none => exact Nat.le_refl _
      | some sessions => exact h.sessioned_le
    loaded_le := fun field ↦ by
      cases hcolumn : cache.columns field with
      | none => exact Nat.le_refl _
      | some column => exact h.loaded_le field
    sessions := fun sessions hsessions ↦ by
      rcases hfilled.sessions_cases hsessions with hold | ⟨hnone, hnew⟩
      · rw [hold]
        exact h.sessions sessions hold
      · rw [hnone]
        exact hnew
    index := fun index hindex ↦ by
      rcases hfilled.index_cases hindex with hold | ⟨hnone, hnew⟩
      · obtain ⟨sessions, hsessions, hbuild⟩ := h.index index hold
        rw [hold]
        exact ⟨sessions, hfilled.sessions_eq_some hsessions, hbuild⟩
      · rw [hnone]
        exact hnew
    columns := fun field column hcolumn ↦ by
      rcases hfilled.columns_cases hcolumn with hold | ⟨hnone, hnew⟩
      · obtain ⟨hindex, hcolumn⟩ := h.columns field column hold
        rw [hold]
        exact ⟨hfilled.index_ne_none hindex, hcolumn⟩
      · rw [hnone]
        exact hnew }

/-- **After any calls the parts of the second cache are each of the store after some of them.** -/
theorem exists_readAt (calendar : Calendar) (calls : List HandleCall) :
    ∃ sessioned indexed loaded,
      (runHandles calendar calls .empty).cache.ReadAt calendar calls sessioned indexed loaded := by
  induction calls using List.reverseRecOn with
  | nil => exact ⟨0, 0, fun _ ↦ 0, readAt_empty calendar⟩
  | append_singleton calls call ih =>
    obtain ⟨sessioned, indexed, loaded, hread⟩ := ih
    rw [runHandles_concat]
    cases call with
    | first call => exact ⟨sessioned, indexed, loaded, hread.concat _⟩
    | second threshold query =>
      obtain ⟨sessioned, indexed, loaded, hnext⟩ := hread.exists_filled
      rw [storeAfter_length] at hnext
      exact ⟨sessioned, indexed, loaded, (hnext _ (query.fills_ask ⟨_, calendar, threshold⟩
        (runHandles calendar calls .empty).cache trivial).1).concat _⟩

end Cache

/-! ### What the second handle serves -/

section

variable {calendar : Calendar} {calls : List HandleCall} {cache : Cache} {sessioned indexed : Nat}
  {loaded : Field → Nat} {threshold : Nat} {asset : AssetId} {day : Day} {value : Binary64}
  (hcalendar : calendar.IsLawful) (hdays : ∀ call ∈ calls, call.HasUnsignedDays)
  (hread : ∀ next : Cache,
    cache.Filled calendar (storeAfter calendar calls calls.length) next →
      next.ReadAt calendar calls sessioned indexed loaded)

include hcalendar hdays

/-- A bar that is stored after some calls has its row in every later store. -/
theorem finds_of_later {count later row : Nat} (hle : count ≤ later) {own bar : Bar}
    (hown : own ∈ (storeAfter calendar calls count).rows)
    (hrow : (storeAfter calendar calls later).rows[row]? = some bar) :
    (storeAfter calendar calls later).Finds row own.asset own.day bar :=
  (isContiguous_storeAfter (hcalendar.isLawfulOn _) hdays later).finds (hcalendar.isLawfulOn _)
    ((rows_storeAfter_sublist hle).subset hown) hrow

include hread

/-- A single value is of a row with an older number, or of the store. -/
theorem exists_bar_of_value {field : Field}
    (h : ((Reader.value ⟨storeAfter calendar calls calls.length, calendar, threshold⟩ asset day
      field).run cache).1 = .ok value) :
    ∃ bar : Bar, value = field.present (bar.value field) ∧
      (bar ∈ (storeAfter calendar calls calls.length).rows ∧ bar.asset = asset ∧ bar.day = day ∨
        (storeAfter calendar calls (loaded field)).Finds
          ((storeAfter calendar calls indexed).rowsBefore asset day) asset day bar) := by
  have hlawful := hcalendar.isLawfulOn Day.IsUnsigned
  have hcontiguous := isContiguous_storeAfter hlawful hdays
  obtain ⟨hfilled, hpost⟩ := Reader.fills_value
    ⟨storeAfter calendar calls calls.length, calendar, threshold⟩ asset day field cache trivial
  obtain ⟨row, stored, ⟨sessions, index, hindexed, hrow⟩, hstored, rfl⟩ := hpost value h
  have hnext := hread _ hfilled
  obtain ⟨rfl, hbuild⟩ := hnext.of_indexed hindexed
  obtain ⟨own, hown, rfl, rfl, rfl⟩ :=
    Reader.exists_row_of_rowIndex (hcontiguous _) (hcontiguous _) hbuild hlawful hrow
  rcases Reader.exists_of_storedValue ((hcontiguous _).nodup_keys hlawful)
    (fun column hcolumn ↦ (hnext.columns field column hcolumn).2) hstored with
    ⟨bar, hbar, hasset, hday, rfl⟩ | ⟨bar, hbar, rfl⟩
  · exact ⟨bar, rfl, Or.inl ⟨hbar, hasset, hday⟩⟩
  · exact ⟨bar, rfl, Or.inr (finds_of_later hcalendar hdays (hnext.indexed_le field) hown hbar)⟩

/-- A cell is missing, or it is of a row with an older number: among all rows if columns are read,
among those of its asset if assets are. -/
theorem exists_bar_of_cell {fields : List Field} {start stop : Day} {assets : List AssetId}
    {tapes : List Tape} {tape : Tape} {row col : Nat}
    (h : ((Reader.load ⟨storeAfter calendar calls calls.length, calendar, threshold⟩ fields start
      stop assets).run cache).1 = .ok tapes) (htape : tape ∈ tapes)
    (hday : tape.days[row]? = some day) (hcol : assets[col]? = some asset)
    (hcell : tape.get? row col = some value) :
    value = tape.field.missing ∨
      ∃ bar : Bar, value = tape.field.present (bar.value tape.field) ∧
        (threshold < assets.length →
          (storeAfter calendar calls (loaded tape.field)).Finds
            ((storeAfter calendar calls indexed).rowsBefore asset day) asset day bar) ∧
        (assets.length ≤ threshold → bar.asset = asset ∧
          (storeAfter calendar calls calls.length).Finds
            ((storeAfter calendar calls calls.length).rowStart asset +
              (storeAfter calendar calls indexed).daysBefore asset day) asset day bar) := by
  have hlawful := hcalendar.isLawfulOn Day.IsUnsigned
  have hcontiguous := isContiguous_storeAfter hlawful hdays
  obtain ⟨hfilled, hpost⟩ := Reader.fills_load
    ⟨storeAfter calendar calls calls.length, calendar, threshold⟩ fields start stop assets cache
    trivial
  obtain ⟨sessions, index, plan, hindexed, hplan, htapes⟩ := hpost tapes h
  have hnext := hread _ hfilled
  obtain ⟨rfl, hbuild⟩ := hnext.of_indexed hindexed
  obtain ⟨sliceOf, hslices, hplaced⟩ :=
    Reader.exists_placed (hcontiguous _) (hcontiguous _) hbuild hcalendar hplan
  cases htapes tape htape with
  | bulk hthreshold hcolumn =>
    rw [(hnext.columns _ _ hcolumn).2] at hcell
    rcases Reader.exists_of_bulkTape hslices hplaced hday hcol hcell with
      hmissing | ⟨own, hown, rfl, rfl, bar, hbar, rfl⟩
    · exact Or.inl hmissing
    · exact Or.inr ⟨bar, rfl, fun _ ↦ finds_of_later hcalendar hdays (hnext.indexed_le _) hown hbar,
        fun hnot ↦ absurd hthreshold (Nat.not_lt.2 hnot)⟩
  | perAsset hthreshold htape =>
    have hle := hnext.indexed_le_length
    obtain ⟨rfl, hdays', -⟩ := (Reader.assetTape_eq_ok_iff hslices).1 htape
    rw [hdays'] at hday
    rcases Reader.exists_of_assetTape hslices hplaced hday hcol
      ((hcontiguous _).nodup_keys hlawful) (rows_storeAfter_sublist hle) htape hcell with
      hmissing | ⟨own, hown, rfl, rfl, bar, hbar, rfl⟩
    · exact Or.inl hmissing
    · have hrow := Store.getElem?_rows (List.getElem?_eq_some_iff.1 hbar).1
      rw [hbar] at hrow
      exact Or.inr ⟨bar, rfl, fun hnot ↦ absurd hthreshold (Nat.not_le.2 hnot), fun _ ↦
        ⟨(Store.mem_assetRows.1 (List.mem_of_getElem? hbar)).2,
          finds_of_later hcalendar hdays hle hown hrow⟩⟩

end

/-- **The second handle serves rows by the numbers that they had in an older store**: single values
and cells of whole columns by their numbers among all rows, unless the store itself is asked, and
cells that are read asset by asset by their numbers among the rows of their asset. What is served is
that of the asset and the day exactly if the number is still theirs. -/
theorem rows_of_other_handle {calendar : Calendar} (hcalendar : calendar.IsLawful)
    (calls : List HandleCall) (hdays : ∀ call ∈ calls, call.HasUnsignedDays) :
    let handles := runHandles calendar calls .empty
    let store := handles.archive.store
    ∃ (indexed : Nat) (loaded : Field → Nat),
      (∀ field, indexed ≤ loaded field ∧ loaded field ≤ calls.length) ∧
      let older := storeAfter calendar calls indexed
      let columnStore := fun field ↦ storeAfter calendar calls (loaded field)
      (∀ threshold asset day field value,
        ((Reader.value ⟨store, calendar, threshold⟩ asset day field).run handles.cache).1 =
            .ok value →
          ∃ bar : Bar, value = field.present (bar.value field) ∧
            (bar ∈ store.rows ∧ bar.asset = asset ∧ bar.day = day ∨
              (columnStore field).Finds (older.rowsBefore asset day) asset day bar)) ∧
      ∀ threshold fields start stop assets tapes,
        ((Reader.load ⟨store, calendar, threshold⟩ fields start stop assets).run
            handles.cache).1 = .ok tapes →
          ∀ tape ∈ tapes, ∀ row col day asset value, tape.days[row]? = some day →
            assets[col]? = some asset → tape.get? row col = some value →
            value = tape.field.missing ∨
              ∃ bar : Bar, value = tape.field.present (bar.value tape.field) ∧
                (threshold < assets.length →
                  (columnStore tape.field).Finds (older.rowsBefore asset day) asset day bar) ∧
                (assets.length ≤ threshold → bar.asset = asset ∧
                  store.Finds (store.rowStart asset + older.daysBefore asset day) asset day
                    bar) := by
  intro handles store
  obtain ⟨_, _, _, hread⟩ := Cache.exists_readAt calendar calls
  obtain ⟨sessioned, indexed, loaded, hread⟩ := hread.exists_filled
  have hempty := hread _ (.refl _)
  refine ⟨indexed, loaded, fun field ↦ ⟨hempty.indexed_le field, hempty.loaded_le field⟩, ?_⟩
  have hnow : store = storeAfter calendar calls calls.length := storeAfter_length.symm
  intro older columnStore
  rw [hnow]
  refine ⟨fun threshold asset day field value hvalue ↦
    exists_bar_of_value hcalendar hdays hread hvalue, ?_⟩
  intro threshold fields start stop assets tapes hload tape htape row col day asset value hday hcol
    hcell
  exact exists_bar_of_cell hcalendar hdays hread hload htape hday hcol hcell

namespace Sample

/-- Tuesday and Wednesday are written. -/
def tuesdayAndWednesday : Call :=
  .write .raise ⟨7⟩ [bar ⟨7⟩ 1 20, bar ⟨7⟩ 2 30]

/-- The two days are read through the other handle, and then Monday is put before them. -/
def lateWrite : List HandleCall :=
  [.first tuesdayAndWednesday, .second 1 (.load [.volume] (day 1) (day 2) [⟨7⟩]),
    .first (.write .raise ⟨7⟩ [bar ⟨7⟩ 0 10])]

theorem hasUnsignedDays_lateWrite : ∀ call ∈ lateWrite, call.HasUnsignedDays := by
  simp [lateWrite, tuesdayAndWednesday, HandleCall.HasUnsignedDays, Call.HasDays, bar]
  decide

/-- The row of Monday comes before the others. -/
theorem rows_lateWrite : (runHandles threeSessions lateWrite .empty).archive.store.rows =
    [bar ⟨7⟩ 0 10, bar ⟨7⟩ 1 20, bar ⟨7⟩ 2 30] := by
  have hrows : (run threeSessions [tuesdayAndWednesday] .empty).store.rows =
      [bar ⟨7⟩ 1 20, bar ⟨7⟩ 2 30] := by
    cbv
  have hbounds : (run threeSessions [tuesdayAndWednesday] .empty).store.assetBounds? ⟨7⟩ =
      some (day 1, day 2) := by
    rw [Store.assetBounds?, Store.assetRows, hrows]
    cbv
  have hplan : Writer.planBars threeSessions .raise
      ((run threeSessions [tuesdayAndWednesday] .empty).store.assetBounds? ⟨7⟩) ⟨7⟩
      [bar ⟨7⟩ 0 10] = .ok ⟨[bar ⟨7⟩ 0 10], []⟩ := by
    rw [hbounds]
    cbv
  have hperm : (runHandles threeSessions lateWrite .empty).archive.store.rows.Perm
      ([bar ⟨7⟩ 1 20, bar ⟨7⟩ 2 30] ++ [bar ⟨7⟩ 0 10].map Bar.stored) := by
    rw [← hrows]
    exact Store.rows_perm_of_append?
      (append?_run_write _ hplan (List.forall_mem_singleton.2 rfl))
  have hasset : (runHandles threeSessions lateWrite .empty).archive.store.assetRows ⟨7⟩ =
      (runHandles threeSessions lateWrite .empty).archive.store.rows := by
    refine List.filter_eq_self.2 fun bar hbar ↦ ?_
    rw [hperm.mem_iff] at hbar
    revert bar
    decide
  rw [← hasset] at hperm ⊢
  exact Store.assetRows_eq_of_ascending Day.orderedTexts_isUnsigned
    (hperm.trans (by decide)) (by decide) (by decide)

/-- What the other handle then loads of Tuesday and Wednesday. -/
def lateTape : Tape :=
  ⟨.volume, [day 1, day 2], [#[.ofInt 10, .ofInt 20]]⟩

/-- The cache of the other handle is that of its first read. -/
theorem cache_lateWrite : (runHandles threeSessions lateWrite .empty).cache =
    ((Query.ask ⟨(run threeSessions [tuesdayAndWednesday] .empty).store, threeSessions, 1⟩
      (.load [.volume] (day 1) (day 2) [⟨7⟩])).run .empty).2 := rfl

theorem load_lateWrite :
    ((Reader.load ⟨(runHandles threeSessions lateWrite .empty).archive.store, threeSessions, 1⟩
      [.volume] (day 1) (day 2) [⟨7⟩]).run (runHandles threeSessions lateWrite .empty).cache).1 =
        .ok [lateTape] := by
  have hrows := rows_lateWrite
  rw [cache_lateWrite]
  generalize (runHandles threeSessions lateWrite .empty).archive.store = store at hrows ⊢
  obtain ⟨_, hordered⟩ := store
  subst hrows
  cbv

theorem value_lateWrite :
    ((Reader.value ⟨(runHandles threeSessions lateWrite .empty).archive.store, threeSessions, 1⟩
      ⟨7⟩ (day 1) .volume).run (runHandles threeSessions lateWrite .empty).cache).1 =
        .ok (.ofInt 20) := by
  have hrows := rows_lateWrite
  rw [cache_lateWrite]
  generalize (runHandles threeSessions lateWrite .empty).archive.store = store at hrows ⊢
  obtain ⟨_, hordered⟩ := store
  subst hrows
  cbv

end Sample

theorem rows_of_late_write :
    let handles := runHandles Sample.threeSessions Sample.lateWrite .empty
    let store := handles.archive.store
    ((Reader.load ⟨store, Sample.threeSessions, 1⟩ [.volume] (Sample.day 1) (Sample.day 2)
        [⟨7⟩]).run handles.cache).1 = .ok [Sample.lateTape] ∧
      ∃ older bar, Field.volume.present (bar.value .volume) = .ofInt 10 ∧ bar.asset = ⟨7⟩ ∧
        store.Finds (store.rowStart ⟨7⟩ + (storeAfter Sample.threeSessions Sample.lateWrite
          older).daysBefore ⟨7⟩ (Sample.day 1)) ⟨7⟩ (Sample.day 1) bar := by
  obtain ⟨older, loaded, -, -, hcells⟩ := rows_of_other_handle
    (Calendar.isLawful_ofSessions "XNYS" _) Sample.lateWrite Sample.hasUnsignedDays_lateWrite
  obtain hmissing | ⟨bar, hvalue, -, hfinds⟩ := hcells _ _ _ _ _ _ Sample.load_lateWrite
    Sample.lateTape List.mem_cons_self 0 0 (Sample.day 1) ⟨7⟩ (.ofInt 10) rfl rfl rfl
  · exact absurd hmissing (by decide)
  · obtain ⟨hasset, hrow⟩ := hfinds (Nat.le_refl 1)
    exact ⟨Sample.load_lateWrite, older, bar, hvalue.symm, hasset, hrow⟩

/-- **A late reader may serve the value of another day**: Monday's in the row of Tuesday, where the
same handle gives Tuesday's when it is asked for the single value. -/
theorem exists_value_of_other_day :
    let handles := runHandles Sample.threeSessions Sample.lateWrite .empty
    let store := handles.archive.store
    let reader : Reader := ⟨store, Sample.threeSessions, 1⟩
    Sample.threeSessions.IsLawful ∧ (∀ call ∈ Sample.lateWrite, call.HasUnsignedDays) ∧
      store.rows = [Sample.bar ⟨7⟩ 0 10, Sample.bar ⟨7⟩ 1 20, Sample.bar ⟨7⟩ 2 30] ∧
      (∃ tape value,
        ((reader.load [.volume] (Sample.day 1) (Sample.day 2) [⟨7⟩]).run handles.cache).1 =
          .ok [tape] ∧
        tape.days[0]? = some (Sample.day 1) ∧ tape.get? 0 0 = some value ∧
        value ≠ Field.volume.missing ∧
        ∀ bar ∈ store.rows, bar.asset = ⟨7⟩ → bar.day = Sample.day 1 →
          value ≠ Field.volume.present (bar.value .volume)) ∧
      ((reader.value ⟨7⟩ (Sample.day 1) .volume).run handles.cache).1 = .ok (.ofInt 20) := by
  intro handles store reader
  refine ⟨Calendar.isLawful_ofSessions _ _, Sample.hasUnsignedDays_lateWrite,
    Sample.rows_lateWrite, ⟨Sample.lateTape, .ofInt 10, Sample.load_lateWrite, rfl, rfl, by decide,
      ?_⟩, Sample.value_lateWrite⟩
  rw [show store.rows = _ from Sample.rows_lateWrite]
  decide

end DailyBars
