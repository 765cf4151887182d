import DailyBars.OffsetIndex

/-!
# The cache of a dataset

What reads derive from a store is kept until the next write: the sessions of the dataset, its
offset index, and whole columns. Each part is filled on its own, by the first read that needs it,
and every successful write drops all parts and counts one generation more.

A cached computation takes the cache along and may fail; what it has cached before it fails stays.
-/

namespace DailyBars

/-- Structures derived from a store. -/
structure Cache where
  sessions : Option DayList
  index : Option OffsetIndex
  columns : Field → Option (Array Binary64)
  /-- The number of times that everything was dropped. -/
  generation : Nat

/-- A computation that may use and fill the cache, and may fail. -/
abbrev Cached (α : Type) : Type := ExceptT StoreError (StateM Cache) α

namespace Cache

/-- The cache of a new dataset. -/
def empty : Cache := ⟨none, none, fun _ ↦ none, 0⟩

instance : Inhabited Cache := ⟨empty⟩

/-- The cache with everything dropped. -/
def invalidate (cache : Cache) : Cache :=
  ⟨none, none, fun _ ↦ none, cache.generation + 1⟩

/-- Whether sessions or an index are cached. -/
def isWarm (cache : Cache) : Bool :=
  cache.sessions.isSome || cache.index.isSome

/-- The cache with a column put in. -/
def putColumn (cache : Cache) (field : Field) (column : Array Binary64) : Cache :=
  { cache with columns := fun other ↦ if other = field then some column else cache.columns other }

/-- A part of the cache; when it is absent it is loaded and put in, unless loading fails. -/
def orLoad {α : Type} (part : Cache → Option α) (put : Cache → α → Cache)
    (load : Unit → Except StoreError α) : Cached α :=
  ExceptT.mk fun cache ↦
    match part cache with
    | some value => (.ok value, cache)
    | none =>
      match load () with
      | .ok value => (.ok value, put cache value)
      | .error error => (.error error, cache)

/-- The cached sessions. -/
def sessionsOrLoad (load : Unit → Except StoreError DayList) : Cached DayList :=
  orLoad Cache.sessions (fun cache value ↦ { cache with sessions := some value }) load

/-- The cached index. -/
def indexOrLoad (load : Unit → Except StoreError OffsetIndex) : Cached OffsetIndex :=
  orLoad Cache.index (fun cache value ↦ { cache with index := some value }) load

/-- The cached column of a field. -/
def columnOrLoad (field : Field) (load : Unit → Except StoreError (Array Binary64)) :
    Cached (Array Binary64) :=
  orLoad (fun cache ↦ cache.columns field) (fun cache value ↦ cache.putColumn field value) load

end Cache

end DailyBars
