import DailyBars.Dataset
import DailyBars.Proofs.Reader.Queries
import DailyBars.Proofs.Writer.Contiguous
import Mathlib

/-!
# Runs of calls on a dataset

All writers and readers of a dataset act on one archive, each call from its beginning to its end. So
what a dataset goes through is a list of calls, in the order in which they were made, and a run
performs one after the other, whether they succeed or not.

**Reads are calls too.** They leave the store as it is and may fill the cache
(`Call.store_perform_ask`).

What every write of bars keeps of a store, every call keeps (`Call.perform_induction`), and what
every call keeps holds after every run (`run_induction`). A run of calls whose days lie in the
years 0 to 9999 keeps the store contiguous (`isContiguous_run`).
-/

namespace DailyBars

/-! ### Calls -/

/-- A call of a writer or a reader. -/
inductive Call where
  /-- Bars of one asset are written. -/
  | write (behavior : Behavior) (asset : AssetId) (bars : List Bar)
  /-- A batch of tables is written, given as tables or as files. -/
  | writeBatch (behavior : Behavior) (known : Option (List AssetId)) (sources : List Writer.Source)
  /-- A reader with a threshold is asked. -/
  | ask (threshold : Nat) (query : Query)

namespace Call

/-- What a call leaves of the archive. -/
def perform (calendar : Calendar) (archive : Archive) : Call → Archive
  | write behavior asset bars => (Writer.writeBars calendar behavior asset bars archive).2
  | writeBatch behavior known sources =>
    (Writer.writeTables calendar behavior known sources archive).archive
  | ask threshold query =>
    { archive with
      cache := ((query.ask ⟨archive.store, calendar, threshold⟩).run archive.cache).2 }

/-- The archives before and after each execution of `Writer.writeBars` in a call. -/
def executions (calendar : Calendar) (archive : Archive) : Call → List (Archive × Archive)
  | write behavior asset bars =>
    [(archive, (Writer.writeBars calendar behavior asset bars archive).2)]
  | writeBatch behavior known sources => Writer.executions calendar behavior known sources archive
  | ask _ _ => []

/-- All days that a call may store have a property. -/
def HasDays (p : Day → Prop) : Call → Prop
  | write _ _ bars => ∀ bar ∈ bars, p bar.day
  | writeBatch _ known sources =>
    ∀ source ∈ sources, ∀ bars, Writer.barsOf? known source = some bars → ∀ bar ∈ bars, p bar.day
  | ask _ _ => True

/-- All days that a call may store lie in the years 0 to 9999. -/
abbrev HasUnsignedDays (call : Call) : Prop :=
  call.HasDays Day.IsUnsigned

theorem store_perform_ask (calendar : Calendar) (archive : Archive) (threshold : Nat)
    (query : Query) : ((ask threshold query).perform calendar archive).store = archive.store := rfl

section

variable {p : Day → Prop} {calendar : Calendar} {archive : Archive} {call : Call}

/-- **What each write of bars keeps of a store, each call keeps**, one that writes none and one that
fails on the way among them. -/
theorem perform_induction {motive : Store → Prop} (hdays : call.HasDays p)
    (hwrite : ∀ behavior asset bars archive, (∀ bar ∈ bars, p bar.day) → motive archive.store →
      motive (Writer.writeBars calendar behavior asset bars archive).2.store)
    (h : motive archive.store) : motive (call.perform calendar archive).store := by
  cases call with
  | write behavior asset bars => exact hwrite behavior asset bars archive hdays h
  | writeBatch behavior known sources =>
    exact Writer.writeTables_induction (motive := fun archive ↦ motive archive.store)
      (fun source hsource bars hbars archive harchive ↦
        hwrite behavior source.1 bars archive (hdays source hsource bars hbars) harchive) h
  | ask threshold query => rwa [store_perform_ask]

/-- **Every call keeps a contiguous store contiguous.** -/
theorem isContiguous_perform (hcalendar : calendar.IsLawfulOn Day.IsUnsigned)
    (hdays : call.HasUnsignedDays) (h : archive.store.IsContiguous calendar) :
    (call.perform calendar archive).store.IsContiguous calendar :=
  perform_induction (motive := fun store ↦ store.IsContiguous calendar) hdays
    (fun _ _ _ _ hbars harchive ↦ Writer.isContiguous_writeBars harchive hcalendar hbars) h

/-- **What holds of the stored days and of those of a call holds of the days stored afterwards.** -/
theorem days_perform (hdays : call.HasDays p) (h : ∀ bar ∈ archive.store.rows, p bar.day) :
    ∀ bar ∈ (call.perform calendar archive).store.rows, p bar.day :=
  perform_induction (motive := fun store ↦ ∀ bar ∈ store.rows, p bar.day) hdays
    (fun _ _ _ _ hbars harchive ↦ Writer.days_writeBars harchive hbars) h

end

/-- **No call loses a row.** -/
theorem extends_perform (calendar : Calendar) (archive : Archive) (call : Call) :
    archive.Extends (call.perform calendar archive) := by
  cases call with
  | write behavior asset bars => exact Writer.extends_writeBars calendar behavior asset bars archive
  | writeBatch behavior known sources =>
    exact Writer.extends_writeFrom calendar behavior known sources 0 .empty archive
  | ask threshold query => exact ⟨rfl, List.Sublist.refl _⟩

end Call

/-! ### Runs -/

/-- What calls leave of an archive, made one after the other. -/
def run (calendar : Calendar) (calls : List Call) (archive : Archive) : Archive :=
  calls.foldl (Call.perform calendar) archive

/-- The executions of `Writer.writeBars` in a run, in order. -/
def executions (calendar : Calendar) : List Call → Archive → List (Archive × Archive)
  | [], _ => []
  | call :: rest, archive =>
    call.executions calendar archive ++ executions calendar rest (call.perform calendar archive)

variable {calendar : Calendar} {calls : List Call} {archive : Archive}

theorem run_cons (call : Call) (rest : List Call) :
    run calendar (call :: rest) archive = run calendar rest (call.perform calendar archive) := rfl

theorem run_append (calls later : List Call) :
    run calendar (calls ++ later) archive = run calendar later (run calendar calls archive) :=
  List.foldl_append

/-- **What every call keeps, a run keeps.** -/
theorem run_induction {motive : Archive → Prop}
    (hstep : ∀ call ∈ calls, ∀ archive, motive archive → motive (call.perform calendar archive))
    (h : motive archive) : motive (run calendar calls archive) := by
  induction calls generalizing archive with
  | nil => exact h
  | cons call rest ih =>
    rw [run_cons]
    exact ih (fun other hother ↦ hstep other (List.mem_cons_of_mem _ hother))
      (hstep call List.mem_cons_self archive h)

theorem isContiguous_run (hcalendar : calendar.IsLawfulOn Day.IsUnsigned)
    (hdays : ∀ call ∈ calls, call.HasUnsignedDays) (h : archive.store.IsContiguous calendar) :
    (run calendar calls archive).store.IsContiguous calendar :=
  run_induction (motive := fun archive ↦ archive.store.IsContiguous calendar)
    (fun call hcall _ harchive ↦ Call.isContiguous_perform hcalendar (hdays call hcall) harchive) h

theorem isContiguous_run_empty (hcalendar : calendar.IsLawfulOn Day.IsUnsigned)
    (hdays : ∀ call ∈ calls, call.HasUnsignedDays) :
    (run calendar calls .empty).store.IsContiguous calendar :=
  isContiguous_run hcalendar hdays (Store.isContiguous_empty calendar)

/-- **Only what is written is stored**: a property of all days of the calls is one of all stored
days, under any calendar. -/
theorem days_run_empty {p : Day → Prop} (calendar : Calendar)
    (hdays : ∀ call ∈ calls, call.HasDays p) :
    ∀ bar ∈ (run calendar calls .empty).store.rows, p bar.day :=
  run_induction (motive := fun archive ↦ ∀ bar ∈ archive.store.rows, p bar.day)
    (fun call hcall _ harchive ↦ Call.days_perform (hdays call hcall) harchive)
    (List.forall_mem_nil _)

theorem extends_run (calendar : Calendar) (calls : List Call) (archive : Archive) :
    archive.Extends (run calendar calls archive) :=
  run_induction (motive := archive.Extends)
    (fun call _ next hnext ↦ hnext.trans (call.extends_perform calendar next)) (.refl archive)

/-! ### Stored days -/

/-- **The stored days of an asset are the sessions between its bounds**, after any calls on a
dataset with a configured calendar: in ascending order, without a gap, without a day that is no
session, and none of them twice. -/
theorem storedDays_eq_sessionsIn {config : CalendarConfig} {files : Files} {calendar : Calendar}
    (hcalendar : config.resolve files = .ok calendar) (calls : List Call)
    (hdays : ∀ call ∈ calls, call.HasUnsignedDays) :
    let store := (run calendar calls .empty).store
    (∀ asset, store.assetRows asset ≠ [] → ∃ first last,
      store.assetBounds? asset = some (first, last) ∧
      ((store.assetRows asset).map Bar.day).head? = some first ∧
      ((store.assetRows asset).map Bar.day).getLast? = some last ∧
      (store.assetRows asset).map Bar.day = calendar.sessionsIn first last) ∧
    (∀ asset, ((store.assetRows asset).map Bar.day).Pairwise (· < ·)) ∧
    (∀ bar ∈ store.rows, calendar.isSession bar.day = true) ∧
    (store.rows.map Bar.key).Nodup := by
  intro store
  have hlawful := CalendarConfig.isLawfulOn_of_resolve hcalendar
  have hcontiguous : store.IsContiguous calendar := isContiguous_run_empty hlawful hdays
  refine ⟨fun asset hasset ↦ ?_, hcontiguous.ascending hlawful,
    fun bar ↦ hcontiguous.isSession hlawful, hcontiguous.nodup_keys hlawful⟩
  obtain ⟨first, last, hbounds, hrun⟩ := hcontiguous.exists_bounds hasset
  obtain ⟨hfirst, hlast⟩ := Store.assetBounds?_eq_some_iff.1 hbounds
  exact ⟨first, last, hbounds, hfirst, hlast, hrun⟩

namespace Sample

/-- Two sessions of one asset are written, and then two of another that leave one out. -/
def writes : List Call :=
  [.write .raise ⟨7⟩ [bar ⟨7⟩ 0 10, bar ⟨7⟩ 1 20], .write .ignore ⟨8⟩ [bar ⟨8⟩ 1 30, bar ⟨8⟩ 3 40]]

theorem hasUnsignedDays_writes : ∀ call ∈ writes, call.HasUnsignedDays := by
  simp [writes, Call.HasDays, bar]
  decide

theorem isLawfulOn_weekdays : weekdays.IsLawfulOn Day.IsUnsigned :=
  (WeekdayRule.isLawfulOn _).mono fun _ ↦ Day.IsUnsigned.lt_greatest

end Sample

theorem storedDays_of_writes :
    let store := (run Sample.weekdays Sample.writes .empty).store
    store.rowCount = 2 ∧ ∃ first last, store.assetBounds? ⟨7⟩ = some (first, last) ∧
      (store.assetRows ⟨7⟩).map Bar.day = Sample.weekdays.sessionsIn first last := by
  have hrows : (run Sample.weekdays Sample.writes .empty).store.rowCount = 2 := by cbv
  have hasset : ((run Sample.weekdays Sample.writes .empty).store.assetRows ⟨7⟩).length = 2 := by
    cbv
  have hcalendar : ({} : CalendarConfig).resolve .empty = .ok Sample.weekdays := rfl
  have h := storedDays_eq_sessionsIn hcalendar Sample.writes Sample.hasUnsignedDays_writes
  obtain ⟨first, last, hbounds, -, -, hdays⟩ := h.1 ⟨7⟩
    (List.ne_nil_of_length_pos (by rw [hasset]; decide))
  exact ⟨hrows, first, last, hbounds, hdays⟩

end DailyBars
