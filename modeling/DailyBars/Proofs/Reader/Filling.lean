import DailyBars.Proofs.Reader.Queries
import Mathlib

/-!
# Reads fill a cache

A cache may hold parts of an older store, when another handle has written to the store since they
were read. Such a cache is coherent with no store, but what a read makes of it can still be said:
**parts that are there stay, and absent ones are taken from the store as it is now**
(`Cache.Filled`). The index is the one part that is made of another: the spans are those of the
store, the sessions are the cached ones.

So there is little to know of a read besides its answer. `Cached.Fills` says that an action fills
the cache and that its answer goes with the cache it leaves; what longer actions do is put together
from their steps, and every query fills the cache (`Query.fills_ask`).
-/

namespace DailyBars

/-- What reading a store may make of a cache. -/
structure Cache.Filled (calendar : Calendar) (store : Store) (cache next : Cache) : Prop where
  sessions : next.sessions = cache.sessions ∨
    cache.sessions = none ∧ next.sessions = some (store.sessions calendar)
  index : next.index = cache.index ∨
    cache.index = none ∧ ∃ sessions index, next.sessions = some sessions ∧
      next.index = some index ∧ OffsetIndex.build store.spans sessions calendar.name = .ok index
  columns : ∀ field, next.columns field = cache.columns field ∨
    cache.columns field = none ∧ next.index ≠ none ∧
      next.columns field = some (store.column field).toArray

namespace Cache.Filled

variable {calendar : Calendar} {store : Store} {cache next last : Cache}

theorem refl (cache : Cache) : Filled calendar store cache cache :=
  ⟨Or.inl rfl, Or.inl rfl, fun _ ↦ Or.inl rfl⟩

/-! ### What is there stays -/

theorem sessions_eq_some (h : Filled calendar store cache next) {sessions : DayList}
    (hsessions : cache.sessions = some sessions) : next.sessions = some sessions := by
  rcases h.sessions with hsame | ⟨hnone, -⟩
  · rw [hsame, hsessions]
  · rw [hnone] at hsessions
    cases hsessions

theorem index_eq_some (h : Filled calendar store cache next) {index : OffsetIndex}
    (hindex : cache.index = some index) : next.index = some index := by
  rcases h.index with hsame | ⟨hnone, -⟩
  · rw [hsame, hindex]
  · rw [hnone] at hindex
    cases hindex

theorem columns_eq_some (h : Filled calendar store cache next) {field : Field}
    {column : Array Binary64} (hcolumn : cache.columns field = some column) :
    next.columns field = some column := by
  rcases h.columns field with hsame | ⟨hnone, -⟩
  · rw [hsame, hcolumn]
  · rw [hnone] at hcolumn
    cases hcolumn

theorem index_ne_none (h : Filled calendar store cache next) (hindex : cache.index ≠ none) :
    next.index ≠ none := by
  obtain ⟨index, hsome⟩ := Option.ne_none_iff_exists'.1 hindex
  rw [h.index_eq_some hsome]
  exact Option.some_ne_none index

/-! ### What is there afterwards was there or is new -/

theorem sessions_cases (h : Filled calendar store cache next) {sessions : DayList}
    (hsessions : next.sessions = some sessions) :
    cache.sessions = some sessions ∨
      cache.sessions = none ∧ sessions = store.sessions calendar := by
  rcases h.sessions with hsame | ⟨hnone, hnew⟩
  · exact Or.inl (hsame.symm.trans hsessions)
  · exact Or.inr ⟨hnone, Option.some_inj.1 (hsessions.symm.trans hnew)⟩

theorem index_cases (h : Filled calendar store cache next) {index : OffsetIndex}
    (hindex : next.index = some index) :
    cache.index = some index ∨ cache.index = none ∧ ∃ sessions, next.sessions = some sessions ∧
      OffsetIndex.build store.spans sessions calendar.name = .ok index := by
  rcases h.index with hsame | ⟨hnone, sessions, new, hsessions, hnew, hbuild⟩
  · exact Or.inl (hsame.symm.trans hindex)
  · obtain rfl := Option.some_inj.1 (hindex.symm.trans hnew)
    exact Or.inr ⟨hnone, sessions, hsessions, hbuild⟩

theorem columns_cases (h : Filled calendar store cache next) {field : Field}
    {column : Array Binary64} (hcolumn : next.columns field = some column) :
    cache.columns field = some column ∨ cache.columns field = none ∧ next.index ≠ none ∧
      column = (store.column field).toArray := by
  rcases h.columns field with hsame | ⟨hnone, hindex, hnew⟩
  · exact Or.inl (hsame.symm.trans hcolumn)
  · exact Or.inr ⟨hnone, hindex, Option.some_inj.1 (hcolumn.symm.trans hnew)⟩

/-- **Reads of one store, one after the other, fill the cache as one read does.** -/
theorem trans (h : Filled calendar store cache next) (hnext : Filled calendar store next last) :
    Filled calendar store cache last where
  sessions := by
    rcases h.sessions with hsame | ⟨hnone, hfilled⟩
    · rw [← hsame]
      exact hnext.sessions
    · exact Or.inr ⟨hnone, hnext.sessions_eq_some hfilled⟩
  index := by
    rcases h.index with hsame | ⟨hnone, sessions, index, hsessions, hindex, hbuild⟩
    · rw [← hsame]
      exact hnext.index
    · exact Or.inr ⟨hnone, sessions, index, hnext.sessions_eq_some hsessions,
        hnext.index_eq_some hindex, hbuild⟩
  columns field := by
    rcases h.columns field with hsame | ⟨hnone, hindex, hcolumn⟩
    · rw [← hsame]
      exact hnext.columns field
    · exact Or.inr ⟨hnone, hnext.index_ne_none hindex, hnext.columns_eq_some hcolumn⟩

end Cache.Filled

namespace Cached

variable {calendar : Calendar} {store : Store} {α β : Type} {pre mid : Cache → Prop}
  {post : α → Cache → Prop} {final : β → Cache → Prop}

/-! ### Filling actions -/

/-- From every cache with a property the action fills the cache from the store, and an answer goes
with the cache that it leaves. -/
def Fills (calendar : Calendar) (store : Store) (pre : Cache → Prop) (action : Cached α)
    (post : α → Cache → Prop) : Prop :=
  ∀ cache : Cache, pre cache → cache.Filled calendar store (action.run cache).2 ∧
    ∀ a, (action.run cache).1 = .ok a → post a (action.run cache).2

/-- Filling a cache does not take the property away. -/
def Stable (calendar : Calendar) (store : Store) (p : Cache → Prop) : Prop :=
  ∀ cache next : Cache, cache.Filled calendar store next → p cache → p next

theorem stable_sessions (sessions : DayList) :
    Stable calendar store fun cache ↦ cache.sessions = some sessions :=
  fun _ _ hfilled ↦ hfilled.sessions_eq_some

theorem stable_index (index : OffsetIndex) :
    Stable calendar store fun cache ↦ cache.index = some index :=
  fun _ _ hfilled ↦ hfilled.index_eq_some

theorem stable_columns (field : Field) (column : Array Binary64) :
    Stable calendar store fun cache ↦ cache.columns field = some column :=
  fun _ _ hfilled ↦ hfilled.columns_eq_some

theorem Fills.mono {weaker : α → Cache → Prop} {action : Cached α}
    (h : Fills calendar store pre action post)
    (hweaker : ∀ a cache, post a cache → weaker a cache) :
    Fills calendar store pre action weaker := by
  intro cache hcache
  obtain ⟨hfilled, hpost⟩ := h cache hcache
  exact ⟨hfilled, fun a ha ↦ hweaker a _ (hpost a ha)⟩

/-- An action may be started where more is known. -/
theorem Fills.from {action : Cached α} (h : Fills calendar store pre action post)
    (hpre : ∀ cache, mid cache → pre cache) : Fills calendar store mid action post :=
  fun cache hcache ↦ h cache (hpre cache hcache)

/-- What is stable is still known after an action. -/
theorem Fills.keep {action : Cached α} (h : Fills calendar store pre action post)
    (hmid : Stable calendar store mid) :
    Fills calendar store (fun cache ↦ pre cache ∧ mid cache) action
      fun a cache ↦ post a cache ∧ mid cache := by
  rintro cache ⟨hpre, hcache⟩
  obtain ⟨hfilled, hpost⟩ := h cache hpre
  exact ⟨hfilled, fun a ha ↦ ⟨hpost a ha, hmid _ _ hfilled hcache⟩⟩

theorem fills_pure {a : α} (h : ∀ cache, pre cache → post a cache) :
    Fills calendar store pre (pure a) post := by
  refine fun cache hcache ↦ ⟨.refl cache, fun b hb ↦ ?_⟩
  cases hb
  exact h cache hcache

theorem fills_lift {result : Except StoreError α}
    (h : ∀ a, result = .ok a → ∀ cache, pre cache → post a cache) :
    Fills calendar store pre (ExceptT.mk (pure result)) post :=
  fun cache hcache ↦ ⟨.refl cache, fun a ha ↦ h a ha cache hcache⟩

theorem Fills.bind {action : Cached α} {f : α → Cached β}
    (h : Fills calendar store pre action post)
    (hnext : ∀ a, Fills calendar store (post a) (f a) final) :
    Fills calendar store pre (action >>= f) final := by
  intro cache hcache
  obtain ⟨hfilled, hpost⟩ := h cache hcache
  rw [run_bind]
  rcases hrun : action.run cache with ⟨error | a, cache'⟩
  · rw [hrun] at hfilled
    exact ⟨hfilled, fun b hb ↦ by cases hb⟩
  · rw [hrun] at hfilled hpost
    obtain ⟨hfilled', hfinal⟩ := hnext a cache' (hpost a rfl)
    exact ⟨hfilled.trans hfilled', hfinal⟩

theorem Fills.map {action : Cached α} {f : α → β} (h : Fills calendar store pre action post)
    (hfinal : ∀ a cache, post a cache → final (f a) cache) :
    Fills calendar store pre (f <$> action) final := by
  rw [map_eq_pure_bind]
  exact h.bind fun a ↦ fills_pure (hfinal a)

/-- An action may look at the cache. -/
theorem fills_get {f : Cache → Cached α}
    (h : ∀ cache, Fills calendar store (fun other ↦ pre other ∧ other = cache) (f cache) post) :
    Fills calendar store pre (getThe Cache >>= f) post :=
  fun cache hcache ↦ h cache cache ⟨hcache, rfl⟩

/-- The answers of a list of actions, each of which goes with the cache at the end. -/
theorem fills_mapM {action : α → Cached β} (hpre : Stable calendar store pre)
    (hfinal : ∀ b, Stable calendar store (final b))
    (h : ∀ a, Fills calendar store pre (action a) final) (list : List α) :
    Fills calendar store pre (list.mapM action) fun answers cache ↦
      pre cache ∧ ∀ b ∈ answers, final b cache := by
  induction list with
  | nil => exact fills_pure fun _ hcache ↦ ⟨hcache, List.forall_mem_nil _⟩
  | cons first rest ih =>
    rw [List.mapM_cons]
    refine (((h first).keep hpre).from fun _ hcache ↦ ⟨hcache, hcache⟩).bind fun b ↦ ?_
    refine ((ih.keep (hfinal b)).from fun _ hcache ↦ hcache.symm).bind fun answers ↦ ?_
    exact fills_pure fun _ ⟨⟨hcache, hanswers⟩, hfirst⟩ ↦
      ⟨hcache, List.forall_mem_cons.2 ⟨hfirst, hanswers⟩⟩

/-- A part that is loaded when it is absent. -/
theorem fills_orLoad {part : Cache → Option α} {put : Cache → α → Cache}
    {load : Unit → Except StoreError α}
    (hpart : ∀ cache a, pre cache → part cache = some a → post a cache)
    (hput : ∀ cache a, pre cache → part cache = none → load () = .ok a →
      cache.Filled calendar store (put cache a) ∧ post a (put cache a)) :
    Fills calendar store pre (Cache.orLoad part put load) post := by
  intro cache hcache
  unfold Cache.orLoad ExceptT.run ExceptT.mk
  dsimp only
  cases hcached : part cache with
  | some a =>
    refine ⟨.refl cache, fun b hb ↦ ?_⟩
    cases hb
    exact hpart cache a hcache hcached
  | none =>
    cases hload : load () with
    | ok a =>
      obtain ⟨hfilled, hpost⟩ := hput cache a hcache hcached hload
      refine ⟨hfilled, fun b hb ↦ ?_⟩
      cases hb
      exact hpost
    | error error => exact ⟨.refl cache, fun b hb ↦ by cases hb⟩

end Cached

namespace Reader

open Cached

variable (reader : Reader)

/-! ### The parts -/

theorem fills_sessions :
    Fills reader.calendar reader.store (fun _ ↦ True) reader.sessions
      fun sessions cache ↦ cache.sessions = some sessions := by
  refine fills_orLoad (fun _ _ _ hcached ↦ hcached) fun cache sessions _ hnone hload ↦ ?_
  have hsessions : sessions = reader.store.sessions reader.calendar := by
    rw [Store.sessions]
    cases hbounds : reader.store.dayBounds? with
    | none =>
      rw [hbounds] at hload
      exact (Except.ok.inj hload).symm
    | some bounds =>
      rw [hbounds] at hload
      exact (Except.ok.inj hload).symm
  exact ⟨⟨Or.inr ⟨hnone, congrArg some hsessions⟩, Or.inl rfl, fun _ ↦ Or.inl rfl⟩, rfl⟩

/-- Sessions and index of a cache. -/
structure Indexed (sessions : DayList) (index : OffsetIndex) (cache : Cache) : Prop where
  sessions : cache.sessions = some sessions
  index : cache.index = some index

theorem stable_indexed {calendar : Calendar} {store : Store} (sessions : DayList)
    (index : OffsetIndex) : Stable calendar store (Indexed sessions index) :=
  fun _ _ hfilled hcache ↦
    ⟨hfilled.sessions_eq_some hcache.sessions, hfilled.index_eq_some hcache.index⟩

theorem fills_index :
    Fills reader.calendar reader.store (fun _ ↦ True) reader.index
      fun index cache ↦ ∃ sessions, Indexed sessions index cache := by
  refine reader.fills_sessions.bind fun sessions ↦ ?_
  refine fills_orLoad (fun cache index hsessions hcached ↦ ⟨sessions, hsessions, hcached⟩)
    fun cache index hsessions hnone hload ↦ ⟨?_, sessions, hsessions, rfl⟩
  exact ⟨Or.inl rfl, Or.inr ⟨hnone, sessions, index, hsessions, rfl, hload⟩, fun _ ↦ Or.inl rfl⟩

theorem fills_column (field : Field) :
    Fills reader.calendar reader.store (fun cache ↦ cache.index ≠ none) (reader.column field)
      fun column cache ↦ cache.columns field = some column := by
  refine fills_orLoad (fun _ _ _ hcached ↦ hcached) fun cache column hindex hnone hload ↦ ?_
  cases hload
  refine ⟨⟨Or.inl rfl, Or.inl rfl, fun other ↦ ?_⟩, if_pos rfl⟩
  by_cases hother : other = field
  · subst hother
    exact Or.inr ⟨hnone, hindex, if_pos rfl⟩
  · exact Or.inl (if_neg hother)

/-! ### Reads -/

/-- Sessions and index are read one after the other, in either order. -/
theorem fills_sessions_of_index (index : OffsetIndex) :
    Fills reader.calendar reader.store (fun cache ↦ ∃ sessions, Indexed sessions index cache)
      reader.sessions fun sessions cache ↦ Indexed sessions index cache :=
  ((reader.fills_sessions.keep (stable_index index)).from
    fun _ ⟨_, hcache⟩ ↦ ⟨trivial, hcache.index⟩).mono fun _ _ ⟨hsessions, hindex⟩ ↦
      ⟨hsessions, hindex⟩

theorem fills_index_of_sessions (sessions : DayList) :
    Fills reader.calendar reader.store (fun cache ↦ cache.sessions = some sessions)
      reader.index fun index cache ↦ Indexed sessions index cache :=
  ((reader.fills_index.keep (stable_sessions sessions)).from
    fun _ hcache ↦ ⟨trivial, hcache⟩).mono fun _ _ ⟨⟨_, hcache⟩, hsessions⟩ ↦
      ⟨hsessions, hcache.index⟩

/-- Sessions and index of a cache give a row for an asset and a day. -/
def GivesRow (asset : AssetId) (day : Day) (row : Nat) (cache : Cache) : Prop :=
  ∃ sessions index, Indexed sessions index cache ∧ rowIndex sessions index asset day = .ok row

theorem fills_rowOf (asset : AssetId) (day : Day) :
    Fills reader.calendar reader.store (fun _ ↦ True) (reader.rowOf asset day)
      (GivesRow asset day) := by
  refine reader.fills_sessions.bind fun sessions ↦
    (reader.fills_index_of_sessions sessions).bind fun index ↦ ?_
  exact fills_lift fun row hrow cache hcache ↦ ⟨sessions, index, hcache, hrow⟩

/-- A single value is read at the row that the cached index gives, from the cached column or the
store. -/
theorem fills_value (asset : AssetId) (day : Day) (field : Field) :
    Fills reader.calendar reader.store (fun _ ↦ True) (reader.value asset day field)
      fun value cache ↦ ∃ row stored, GivesRow asset day row cache ∧
        storedValue reader.store cache asset day row field = .ok stored ∧
        value = field.present stored := by
  refine (reader.fills_rowOf asset day).bind fun row ↦ fills_get fun cache ↦ ?_
  have hlookup : Fills reader.calendar reader.store
      (fun other ↦ GivesRow asset day row other ∧ other = cache)
      (ExceptT.mk (pure (storedValue reader.store cache asset day row field)))
      fun stored other ↦ GivesRow asset day row other ∧
        storedValue reader.store other asset day row field = .ok stored := by
    refine fills_lift fun stored hstored other hother ↦ ⟨hother.1, ?_⟩
    rw [hother.2]
    exact hstored
  exact hlookup.bind fun stored ↦ fills_pure fun other hother ↦
    ⟨row, stored, hother.1, hother.2, rfl⟩

/-- Where a range read takes a tape from: a cached column above the threshold, else the rows that
the store has of each asset. -/
inductive Loaded (threshold : Nat) (store : Store) (index : OffsetIndex) (assets : List AssetId)
    (plan : Plan) (cache : Cache) : Tape → Prop
  | bulk {field : Field} {column : Array Binary64} (hthreshold : threshold < assets.length)
      (hcolumn : cache.columns field = some column) :
      Loaded threshold store index assets plan cache (bulkTape plan field column)
  | perAsset {field : Field} {tape : Tape} (hthreshold : assets.length ≤ threshold)
      (htape : assetTape store index assets plan field = .ok tape) :
      Loaded threshold store index assets plan cache tape

theorem fills_load (fields : List Field) (start stop : Day) (assets : List AssetId) :
    Fills reader.calendar reader.store (fun _ ↦ True) (reader.load fields start stop assets)
      fun tapes cache ↦ ∃ sessions index plan, Indexed sessions index cache ∧
        Reader.plan reader.calendar sessions index start stop assets = .ok plan ∧
        ∀ tape ∈ tapes, Loaded reader.threshold reader.store index assets plan cache tape := by
  refine reader.fills_index.bind fun index ↦
    (reader.fills_sessions_of_index index).bind fun sessions ↦ ?_
  have hplans : Fills reader.calendar reader.store (Indexed sessions index)
      (ExceptT.mk (pure (Reader.plan reader.calendar sessions index start stop assets)))
      fun plan cache ↦ Indexed sessions index cache ∧
        Reader.plan reader.calendar sessions index start stop assets = .ok plan :=
    fills_lift fun plan hplan cache hcache ↦ ⟨hcache, hplan⟩
  refine hplans.bind fun plan ↦ ?_
  split
  · rename_i hthreshold
    have hcolumn : ∀ field, Fills reader.calendar reader.store (Indexed sessions index)
        ((field, ·) <$> reader.column field)
        fun entry cache ↦ cache.columns entry.1 = some entry.2 := by
      refine fun field ↦ ((reader.fills_column field).from fun cache hcache ↦ ?_).map
        fun _ _ hcolumn ↦ hcolumn
      rw [hcache.index]
      exact Option.some_ne_none index
    have hcolumns := fills_mapM (stable_indexed sessions index)
      (fun (entry : Field × Array Binary64) ↦ stable_columns entry.1 entry.2) hcolumn fields
    have hplanned : Stable reader.calendar reader.store fun _ ↦
        Reader.plan reader.calendar sessions index start stop assets = .ok plan :=
      fun _ _ _ hplan ↦ hplan
    refine (hcolumns.keep hplanned).bind fun entries ↦ fills_pure fun cache hcache ↦ ?_
    obtain ⟨⟨hindexed, hentries⟩, hplan⟩ := hcache
    refine ⟨sessions, index, plan, hindexed, hplan, fun tape htape ↦ ?_⟩
    obtain ⟨entry, hentry, rfl⟩ := List.mem_map.1 htape
    exact .bulk hthreshold (hentries entry hentry)
  · rename_i hthreshold
    refine fills_lift fun tapes htapes cache hcache ↦
      ⟨sessions, index, plan, hcache.1, hcache.2, fun tape htape ↦ ?_⟩
    obtain ⟨field, -, hread⟩ := Result.exists_of_mem_of_mapM htapes htape
    exact .perAsset (Nat.not_lt.1 hthreshold) hread

theorem fills_lastTraded (asset : AssetId) (day : Day) :
    Fills reader.calendar reader.store (fun _ ↦ True) (reader.lastTraded asset day)
      fun _ _ ↦ True := by
  refine reader.fills_sessions.bind fun sessions ↦
    (reader.fills_index_of_sessions sessions).bind fun index ↦ fills_get fun cache ↦ ?_
  split
  · split
    · split
      · exact fills_pure fun _ _ ↦ trivial
      · exact fills_lift fun _ _ _ _ ↦ trivial
    · exact fills_pure fun _ _ ↦ trivial
  · exact fills_lift fun _ _ _ _ ↦ trivial

end Reader

/-- **Every query fills the cache**, whatever is in it. -/
theorem Query.fills_ask (reader : Reader) (query : Query) :
    Cached.Fills reader.calendar reader.store (fun _ ↦ True) (query.ask reader)
      fun _ _ ↦ True := by
  cases query with
  | sessions => exact reader.fills_sessions.mono fun _ _ _ ↦ trivial
  | index => exact reader.fills_index.mono fun _ _ _ ↦ trivial
  | load fields start stop assets =>
    exact (reader.fills_load fields start stop assets).mono fun _ _ _ ↦ trivial
  | value asset day field => exact (reader.fills_value asset day field).mono fun _ _ _ ↦ trivial
  | rowOf asset day => exact (reader.fills_rowOf asset day).mono fun _ _ _ ↦ trivial
  | lastTraded asset day => exact reader.fills_lastTraded asset day
  | currencyCodes assets =>
    exact reader.fills_index.bind fun _ ↦ Cached.fills_pure fun _ _ ↦ trivial
  | firstTradingDay => exact reader.fills_sessions.map fun _ _ _ ↦ trivial
  | lastAvailableDay => exact reader.fills_sessions.map fun _ _ _ ↦ trivial

end DailyBars
