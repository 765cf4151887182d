import DailyBars.Calendar.Weekday
import DailyBars.Proofs.Reader.Load
import Mathlib

/-!
# Queries

All that a reader can be asked is one type, and what it answers is a type for each query, so that
one statement speaks of all queries. Every query keeps coherent caches coherent, of any store and
under any calendar (`Query.answers_ask`); so the caches that queries leave behind are coherent
(`Cache.isCoherent_after`), and the answer of a range read does not depend on them.

**The answers of `value` and `lastTraded` may depend on the cache**, on a store that is not aligned
with its calendar: a cached column is read by row, the store by asset and day. This module only says
that they leave the cache coherent.
-/

namespace DailyBars

/-- What a reader can be asked. -/
inductive Query where
  | sessions
  | index
  | load (fields : List Field) (start stop : Day) (assets : List AssetId)
  | value (asset : AssetId) (day : Day) (field : Field)
  | rowOf (asset : AssetId) (day : Day)
  | lastTraded (asset : AssetId) (day : Day)
  | currencyCodes (assets : List AssetId)
  | firstTradingDay
  | lastAvailableDay

/-- What a query is answered with, unless it fails. -/
def Query.Answer : Query → Type
  | sessions => DayList
  | index => OffsetIndex
  | load .. => List Tape
  | value .. => Binary64
  | rowOf .. => Nat
  | lastTraded .. => Option Day
  | currencyCodes .. => List (Option String)
  | firstTradingDay => Option Day
  | lastAvailableDay => Option Day

/-- Asks a reader. -/
def Query.ask (reader : Reader) : (query : Query) → Cached query.Answer
  | sessions => reader.sessions
  | index => reader.index
  | load fields start stop assets => reader.load fields start stop assets
  | value asset day field => reader.value asset day field
  | rowOf asset day => reader.rowOf asset day
  | lastTraded asset day => reader.lastTraded asset day
  | currencyCodes assets => reader.currencyCodes assets
  | firstTradingDay => reader.firstTradingDay
  | lastAvailableDay => reader.lastAvailableDay

namespace Reader

variable (reader : Reader)

/-! ### What queries leave behind -/

theorem computes_rowOf (asset : AssetId) (day : Day) :
    Cached.Computes reader.calendar reader.store (reader.rowOf asset day)
      (reader.store.index reader.calendar >>= fun index ↦
        rowIndex (reader.store.sessions reader.calendar) index asset day) :=
  reader.computes_sessions.then (reader.computes_index.bind fun _ _ ↦ Cached.computes_lift _)

theorem computes_currencyCodes (assets : List AssetId) :
    Cached.Computes reader.calendar reader.store (reader.currencyCodes assets)
      (reader.store.index reader.calendar >>= fun index ↦
        .ok (assets.map fun asset ↦ if index.contains asset then some currencyCode else none)) :=
  reader.computes_index.bind fun _ _ ↦ Cached.answers_pure rfl

theorem answers_load (fields : List Field) (start stop : Day) (assets : List AssetId) :
    Cached.Answers reader.calendar reader.store (reader.load fields start stop assets)
      fun _ ↦ True := by
  refine reader.computes_index.answers.bind (fun index _ ↦ reader.computes_sessions.then ?_)
    fun _ _ ↦ trivial
  refine (Cached.computes_lift _).answers.bind (fun plan _ ↦ ?_) fun _ _ ↦ trivial
  split
  · exact (Cached.computes_mapM (fun field ↦ (reader.computes_column field).map (field, ·))
      fields).then (Cached.answers_pure trivial)
  · exact Cached.answers_lift trivial

theorem answers_value (asset : AssetId) (day : Day) (field : Field) :
    Cached.Answers reader.calendar reader.store (reader.value asset day field) fun _ ↦ True := by
  refine (reader.computes_rowOf asset day).answers.bind (fun row _ ↦ ?_) fun _ _ ↦ trivial
  refine Cached.answers_get fun cache _ ↦ ?_
  exact (Cached.computes_lift _).answers.bind (fun _ _ ↦ Cached.answers_pure trivial)
    fun _ _ ↦ trivial

theorem answers_lastTraded (asset : AssetId) (day : Day) :
    Cached.Answers reader.calendar reader.store (reader.lastTraded asset day) fun _ ↦ True := by
  refine reader.computes_sessions.then ?_
  refine reader.computes_index.answers.bind (fun index _ ↦ ?_) fun _ _ ↦ trivial
  refine Cached.answers_get fun cache _ ↦ ?_
  split
  · split
    · split
      · exact Cached.answers_pure trivial
      · exact Cached.answers_lift trivial
    · exact Cached.answers_pure trivial
  · exact Cached.answers_lift trivial

end Reader

/-- **Every query keeps coherent caches coherent** and counts no generation. -/
theorem Query.answers_ask (reader : Reader) (query : Query) :
    Cached.Answers reader.calendar reader.store (query.ask reader) fun _ ↦ True := by
  cases query with
  | sessions => exact reader.computes_sessions.answers
  | index => exact reader.computes_index.answers
  | load fields start stop assets => exact reader.answers_load fields start stop assets
  | value asset day field => exact reader.answers_value asset day field
  | rowOf asset day => exact (reader.computes_rowOf asset day).answers
  | lastTraded asset day => exact reader.answers_lastTraded asset day
  | currencyCodes assets => exact (reader.computes_currencyCodes assets).answers
  | firstTradingDay => exact (reader.computes_sessions.map DayList.first?).answers
  | lastAvailableDay => exact (reader.computes_sessions.map DayList.last?).answers

/-- The cache that queries leave behind, each asked by a reader with a threshold of its own. -/
def Cache.after (calendar : Calendar) (store : Store) (asked : List (Nat × Query)) : Cache :=
  asked.foldl (fun cache (threshold, query) ↦
    ((query.ask ⟨store, calendar, threshold⟩).run cache).2) Cache.empty

theorem Cache.isCoherent_after (calendar : Calendar) (store : Store) (asked : List (Nat × Query)) :
    (Cache.after calendar store asked).IsCoherent calendar store := by
  refine List.foldlRecOn (motive := fun cache : Cache ↦ cache.IsCoherent calendar store) asked _
    (Cache.isCoherent_empty calendar store) fun cache hcache query _ ↦ ?_
  exact (query.2.answers_ask ⟨store, calendar, query.1⟩ cache hcache).2.1

/-- **The threshold is no part of the answer of a range read**, whatever either reader was asked
before: of a store that has no asset twice on a day, in whole columns or asset by asset, a read
gives the same tapes or fails with the same error. -/
theorem load_eq_of_thresholds (calendar : Calendar) (store : Store)
    (hkeys : (store.rows.map Bar.key).Nodup) (fields : List Field) (start stop : Day)
    (assets : List AssetId) (threshold other : Nat) (asked askedOther : List (Nat × Query)) :
    ((Reader.load ⟨store, calendar, threshold⟩ fields start stop assets).run
        (Cache.after calendar store asked)).1 =
      ((Reader.load ⟨store, calendar, other⟩ fields start stop assets).run
        (Cache.after calendar store askedOther)).1 := by
  have hload := fun threshold ↦
    Reader.computes_load ⟨store, calendar, threshold⟩ hkeys fields start stop assets
  have hone := (hload threshold _ (Cache.isCoherent_after calendar store asked)).1
  have hother := (hload other _ (Cache.isCoherent_after calendar store askedOther)).1
  exact hone.trans hother.symm

namespace Sample

/-- One of ten days from Monday, the first of January 2024, on. -/
def day (i : Nat) : Day :=
  ⟨19723 + (i % 10 : Nat), by omega⟩

/-- A bar with unknown prices. -/
def bar (asset : AssetId) (i : Nat) (volume : Int64) : Bar :=
  ⟨asset, day i, .zero, .zero, .zero, .zero, volume⟩

/-- Monday to Friday. -/
def weekdays : Calendar :=
  (WeekdayRule.ofHolidays "XNYS" []).calendar

/-- Bars of two assets, one of which has a gap. -/
def unaligned : List Bar :=
  [bar ⟨8⟩ 1 10, bar ⟨7⟩ 3 20, bar ⟨7⟩ 0 30]

theorem nodup_keys_unaligned : ((Store.ofBars unaligned).rows.map Bar.key).Nodup := by
  have hperm := (Store.rows_ofBars_perm unaligned).map Bar.key
  rw [hperm.nodup_iff]
  decide

end Sample

theorem load_unaligned_eq :
    let store := Store.ofBars Sample.unaligned
    let asked := [(1, Query.value ⟨7⟩ (Sample.day 3) .volume)]
    (store.rows.map Bar.key).Nodup ∧
      ((Reader.load ⟨store, Sample.weekdays, 0⟩ Field.all (Sample.day 0) (Sample.day 9)
          [⟨8⟩, ⟨7⟩]).run (Cache.after Sample.weekdays store asked)).1 =
        ((Reader.load ⟨store, Sample.weekdays, 2⟩ Field.all (Sample.day 0) (Sample.day 9)
          [⟨8⟩, ⟨7⟩]).run (Cache.after Sample.weekdays store [])).1 :=
  ⟨Sample.nodup_keys_unaligned, load_eq_of_thresholds Sample.weekdays _ Sample.nodup_keys_unaligned
    Field.all (Sample.day 0) (Sample.day 9) [⟨8⟩, ⟨7⟩] 0 2 _ []⟩

end DailyBars
