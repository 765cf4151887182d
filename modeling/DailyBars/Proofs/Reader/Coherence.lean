import DailyBars.Proofs.Result
import DailyBars.Reader
import Mathlib

/-!
# Coherent caches

A cache is coherent with a store when each of its parts, if it is there, is what loading would give.
The empty cache is, and so is what reads make of a coherent cache. On coherent caches a read has one
answer, and that answer can be said without a cache.

**Reads are spoken of by `Cached.Answers` only**: what the answer is on every coherent cache, which
the action leaves coherent and of the same generation. An action computes a result when this is its
answer (`Cached.Computes`). What longer actions answer is put together from their steps, by one
lemma for each way of chaining, so no proof has to follow a cache through a read.
-/

namespace DailyBars

namespace Store

/-- The sessions from the first to the last stored day. -/
def sessions (store : Store) (calendar : Calendar) : DayList :=
  match store.dayBounds? with
  | some (first, last) => DayList.ofList (calendar.sessionsIn first last)
  | none => .empty

/-- The index of the store over its sessions. -/
def index (store : Store) (calendar : Calendar) : Except StoreError OffsetIndex :=
  OffsetIndex.build store.spans (store.sessions calendar) calendar.name

end Store

/-- Every part that is cached is what loading would give. -/
structure Cache.IsCoherent (cache : Cache) (calendar : Calendar) (store : Store) : Prop where
  sessions : ∀ sessions, cache.sessions = some sessions → sessions = store.sessions calendar
  index : ∀ index, cache.index = some index → store.index calendar = .ok index
  columns : ∀ field column, cache.columns field = some column →
    column = (store.column field).toArray

theorem Cache.isCoherent_empty (calendar : Calendar) (store : Store) :
    Cache.empty.IsCoherent calendar store where
  sessions _ h := by cases h
  index _ h := by cases h
  columns _ _ h := by cases h

theorem Cache.isCoherent_invalidate (cache : Cache) (calendar : Calendar) (store : Store) :
    cache.invalidate.IsCoherent calendar store where
  sessions _ h := by cases h
  index _ h := by cases h
  columns _ _ h := by cases h

namespace Cached

variable {calendar : Calendar} {store : Store} {α β : Type}

/-! ### Answers on coherent caches -/

/-- On every coherent cache the answer of the action is as said, and the cache stays coherent and of
the same generation. -/
def Answers (calendar : Calendar) (store : Store) (action : Cached α)
    (post : Except StoreError α → Prop) : Prop :=
  ∀ cache : Cache, cache.IsCoherent calendar store →
    post (action.run cache).1 ∧ (action.run cache).2.IsCoherent calendar store ∧
      (action.run cache).2.generation = cache.generation

/-- On every coherent cache the action has the same answer. -/
abbrev Computes (calendar : Calendar) (store : Store) (action : Cached α)
    (result : Except StoreError α) : Prop :=
  Answers calendar store action (· = result)

/-- What is computed is the answer of a read without a cache. -/
theorem Computes.fst_eq {action : Cached α} {result : Except StoreError α}
    (h : Computes calendar store action result) {cache : Cache}
    (hcache : cache.IsCoherent calendar store) :
    (action.run cache).1 = (action.run Cache.empty).1 :=
  (h cache hcache).1.trans (h .empty (Cache.isCoherent_empty calendar store)).1.symm

theorem Answers.mono {action : Cached α} {post weaker : Except StoreError α → Prop}
    (h : Answers calendar store action post) (hweaker : ∀ result, post result → weaker result) :
    Answers calendar store action weaker := by
  intro cache hcache
  obtain ⟨hpost, hcoherent⟩ := h cache hcache
  exact ⟨hweaker _ hpost, hcoherent⟩

theorem answers_lift {result : Except StoreError α} {post : Except StoreError α → Prop}
    (h : post result) : Answers calendar store (ExceptT.mk (pure result)) post :=
  fun _ hcache ↦ ⟨h, hcache, rfl⟩

theorem computes_lift (result : Except StoreError α) :
    Computes calendar store (ExceptT.mk (pure result)) result :=
  answers_lift rfl

theorem answers_pure {a : α} {post : Except StoreError α → Prop} (h : post (.ok a)) :
    Answers calendar store (pure a) post :=
  fun _ hcache ↦ ⟨h, hcache, rfl⟩

theorem run_bind (action : Cached α) (f : α → Cached β) (cache : Cache) :
    (action >>= f).run cache =
      match action.run cache with
      | (.ok a, cache) => (f a).run cache
      | (.error error, cache) => (.error error, cache) := by
  unfold ExceptT.run
  simp only [Bind.bind, ExceptT.bind, ExceptT.mk, StateT.bind, ExceptT.bindCont]
  rcases action cache with ⟨error | a, cache'⟩
  · rfl
  · rfl

theorem Answers.bind {action : Cached α} {f : α → Cached β} {post : Except StoreError α → Prop}
    {final : Except StoreError β → Prop} (h : Answers calendar store action post)
    (hok : ∀ a, post (.ok a) → Answers calendar store (f a) final)
    (herror : ∀ error, post (.error error) → final (.error error)) :
    Answers calendar store (action >>= f) final := by
  intro cache hcache
  obtain ⟨hpost, hcoherent, hgeneration⟩ := h cache hcache
  rw [run_bind]
  rcases hrun : action.run cache with ⟨error | a, cache'⟩
  · rw [hrun] at hpost hcoherent hgeneration
    exact ⟨herror error hpost, hcoherent, hgeneration⟩
  · rw [hrun] at hpost hcoherent hgeneration
    obtain ⟨hfinal, hcoherent', hgeneration'⟩ := hok a hpost cache' hcoherent
    exact ⟨hfinal, hcoherent', hgeneration'.trans hgeneration⟩

/-- What is computed is answered. -/
theorem Computes.answers {action : Cached α} {result : Except StoreError α}
    (h : Computes calendar store action result) :
    Answers calendar store action fun _ ↦ True :=
  h.mono fun _ _ ↦ trivial

/-- The results of two steps are put together as the steps are. -/
theorem Computes.bind {action : Cached α} {result : Except StoreError α} {f : α → Cached β}
    {g : α → Except StoreError β} (h : Computes calendar store action result)
    (hnext : ∀ a, result = .ok a → Computes calendar store (f a) (g a)) :
    Computes calendar store (action >>= f) (result >>= g) := by
  refine Answers.bind h (fun a ha ↦ ?_) fun error herror ↦ ?_
  · rw [← ha]
    exact hnext a ha.symm
  · rw [← herror]
    rfl

/-- The step after one that succeeds. -/
theorem Computes.then {action : Cached α} {a : α} {f : α → Cached β}
    {post : Except StoreError β → Prop} (h : Computes calendar store action (.ok a))
    (hnext : Answers calendar store (f a) post) : Answers calendar store (action >>= f) post := by
  refine Answers.bind h (fun b hb ↦ ?_) fun error herror ↦ ?_
  · cases hb
    exact hnext
  · cases herror

theorem Computes.map {action : Cached α} {result : Except StoreError α} (f : α → β)
    (h : Computes calendar store action result) :
    Computes calendar store (f <$> action) (result.map f) := by
  have hbind := h.bind (f := fun a ↦ pure (f a)) fun a _ ↦ answers_pure rfl
  rw [map_eq_pure_bind]
  cases result <;> exact hbind

/-- The answers of a list of actions that succeed. -/
theorem computes_mapM {action : α → Cached β} {answer : α → β}
    (h : ∀ a, Computes calendar store (action a) (.ok (answer a))) (list : List α) :
    Computes calendar store (list.mapM action) (.ok (list.map answer)) := by
  induction list with
  | nil => exact answers_pure rfl
  | cons first rest ih =>
    rw [List.mapM_cons]
    exact (h first).then (ih.then (answers_pure rfl))

/-- An action may look at the cache where all coherent ones lead to the same. -/
theorem answers_get {f : Cache → Cached α} {post : Except StoreError α → Prop}
    (h : ∀ cache : Cache, cache.IsCoherent calendar store →
      Answers calendar store (f cache) post) :
    Answers calendar store (getThe Cache >>= f) post :=
  fun cache hcache ↦ h cache hcache cache hcache

/-! ### The parts of a cache -/

theorem computes_orLoad {part : Cache → Option α} {put : Cache → α → Cache}
    {load : Unit → Except StoreError α}
    (hpart : ∀ cache : Cache, cache.IsCoherent calendar store → ∀ a, part cache = some a →
      load () = .ok a)
    (hput : ∀ cache : Cache, cache.IsCoherent calendar store → ∀ a, load () = .ok a →
      (put cache a).IsCoherent calendar store ∧ (put cache a).generation = cache.generation) :
    Computes calendar store (Cache.orLoad part put load) (load ()) := by
  intro cache hcache
  unfold Cache.orLoad ExceptT.run ExceptT.mk
  dsimp only
  cases hcached : part cache with
  | some a => exact ⟨(hpart cache hcache a hcached).symm, hcache, rfl⟩
  | none =>
    cases hload : load () with
    | ok a => exact ⟨rfl, hput cache hcache a hload⟩
    | error error => exact ⟨rfl, hcache, rfl⟩

end Cached

namespace Reader

variable (reader : Reader)

theorem computes_sessions :
    Cached.Computes reader.calendar reader.store reader.sessions
      (.ok (reader.store.sessions reader.calendar)) := by
  have hload : (match reader.store.dayBounds? with
      | some (first, last) =>
        (.ok (DayList.ofList (reader.calendar.sessionsIn first last)) : Except StoreError DayList)
      | none => .ok .empty) = .ok (reader.store.sessions reader.calendar) := by
    rw [Store.sessions]
    split <;> rfl
  unfold sessions Cache.sessionsOrLoad
  rw [← hload]
  refine Cached.computes_orLoad (fun cache hcache sessions hcached ↦ ?_)
    fun cache hcache sessions hsessions ↦ ⟨?_, rfl⟩
  · rw [hcache.sessions sessions hcached]
    exact hload
  · cases hload.symm.trans hsessions
    exact ⟨fun _ h ↦ by cases h; rfl, hcache.index, hcache.columns⟩

theorem computes_index :
    Cached.Computes reader.calendar reader.store reader.index
      (reader.store.index reader.calendar) := by
  refine reader.computes_sessions.then ?_
  refine Cached.computes_orLoad (fun cache hcache index hcached ↦ hcache.index index hcached)
    fun cache hcache index hindex ↦ ⟨?_, rfl⟩
  exact ⟨hcache.sessions, fun _ h ↦ by cases h; exact hindex, hcache.columns⟩

theorem computes_column (field : Field) :
    Cached.Computes reader.calendar reader.store (reader.column field)
      (.ok (reader.store.column field).toArray) := by
  refine Cached.computes_orLoad
    (fun cache hcache column hcached ↦ by rw [hcache.columns field column hcached])
    fun cache hcache column hcolumn ↦ ⟨?_, rfl⟩
  refine ⟨hcache.sessions, hcache.index, fun other found hfound ↦ ?_⟩
  cases hcolumn
  change (if other = field then some _ else cache.columns other) = some found at hfound
  split at hfound
  · rename_i hsame
    rw [hsame]
    exact (Option.some_inj.1 hfound).symm
  · exact hcache.columns other found hfound

end Reader

end DailyBars
