import DailyBars.Proofs.Table.Bars
import Mathlib

/-!
# Rows in another order

The rows of a table in another order are the entries of each column picked in that order (`pick`).
Whatever is done to the entries of a column one by one can be done before or after: a column
converts in any order of its rows or in none (`ColumnData.convert?_reorder`), and columns of one
height may be put in order together or each for itself (`pick_zip`).

**What is said of an index that cannot be used is the exception.** It names the first row with a
fault, which another order of the rows may change; whether there is one it does not change
(`Table.toOption_days_reorder`).
-/

namespace DailyBars

/-! ### Rows in another order -/

/-- The entries in the rows of `order`, one after the other. -/
def pick {α : Type} (order : List Nat) (entries : List α) : List α :=
  order.filterMap (entries[·]?)

section Pick

variable {α β : Type} {order : List Nat} {entries : List α}

theorem map_pick (f : α → β) (order : List Nat) (entries : List α) :
    (pick order entries).map f = pick order (entries.map f) := by
  rw [pick, pick, List.map_filterMap]
  exact List.filterMap_congr fun row _ ↦ List.getElem?_map.symm

theorem pick_range (entries : List α) : pick (List.range entries.length) entries = entries := by
  induction entries with
  | nil => rfl
  | cons first rest ih =>
    rw [pick, List.length_cons, List.range_succ_eq_map, List.filterMap_cons, List.filterMap_map]
    exact congrArg (first :: ·) ih

/-- An order of all rows only moves the entries. -/
theorem perm_pick (h : order.Perm (List.range entries.length)) :
    (pick order entries).Perm entries := by
  have hpicked := h.filterMap (entries[·]?)
  rwa [← pick, ← pick, pick_range] at hpicked

theorem pick_replicate {height : Nat} (h : order.Perm (List.range height)) (value : α) :
    pick order (List.replicate height value) = List.replicate order.length value := by
  rw [h.length_eq, List.length_range]
  exact List.perm_replicate.1 (perm_pick (by rwa [List.length_replicate]))

theorem length_zip_of_eq {others : List β} {height : Nat} (hentries : entries.length = height)
    (hothers : others.length = height) : (entries.zip others).length = height := by
  rw [List.length_zip, hentries, hothers, Nat.min_self]

/-- Columns of one height are put in order together. -/
theorem pick_zip {others : List β} {height : Nat} (hentries : entries.length = height)
    (hothers : others.length = height) (order : List Nat) :
    pick order (entries.zip others) = (pick order entries).zip (pick order others) := by
  have hzip := length_zip_of_eq hentries hothers
  induction order with
  | nil => rfl
  | cons row order ih =>
    simp only [pick, List.filterMap_cons] at ih ⊢
    by_cases hrow : row < height
    · rw [List.getElem?_eq_getElem (by omega), List.getElem?_eq_getElem (by omega),
        List.getElem?_eq_getElem (by omega), List.getElem_zip, ih]
      rfl
    · rw [List.getElem?_eq_none (by omega), List.getElem?_eq_none (by omega),
        List.getElem?_eq_none (by omega), ih]

/-- **Entries convert in any order**, or in none. -/
theorem mapM_pick {f : α → Option β} (h : order.Perm (List.range entries.length)) :
    (pick order entries).mapM f = (entries.mapM f).map (pick order) := by
  cases hvalues : entries.mapM f with
  | some values =>
    rw [Option.map_some, Result.mapM_eq_some_iff, map_pick, Result.mapM_eq_some_iff.1 hvalues,
      map_pick]
  | none =>
    rw [Option.map_none, ← Option.not_isSome_iff_eq_none, Result.isSome_mapM,
      (perm_pick h).all_eq, ← Result.isSome_mapM, hvalues]
    exact Bool.false_ne_true

end Pick

namespace ColumnData

/-- The rows of a column in another order. -/
def reorder (order : List Nat) : ColumnData → ColumnData
  | text entries => text (pick order entries)
  | truth entries => truth (pick order entries)
  | real type entries => real type (pick order entries)
  | whole type entries => whole type (pick order entries)
  | untyped _ => untyped order.length
  | date entries => date (pick order entries)
  | instant unit entries => instant unit (pick order entries)

variable {order : List Nat} {data : ColumnData}

theorem height_reorder (h : order.Perm (List.range data.height)) :
    (data.reorder order).height = data.height := by
  cases data with
  | untyped height => exact h.length_eq.trans List.length_range
  | text entries => exact (perm_pick h).length_eq
  | truth entries => exact (perm_pick h).length_eq
  | real type entries => exact (perm_pick h).length_eq
  | whole type entries => exact (perm_pick h).length_eq
  | date entries => exact (perm_pick h).length_eq
  | instant unit entries => exact (perm_pick h).length_eq

theorem reorder_range (data : ColumnData) : data.reorder (List.range data.height) = data := by
  cases data with
  | untyped height => exact congrArg untyped List.length_range
  | text entries => exact congrArg text (pick_range entries)
  | truth entries => exact congrArg truth (pick_range entries)
  | real type entries => exact congrArg (real type) (pick_range entries)
  | whole type entries => exact congrArg (whole type) (pick_range entries)
  | date entries => exact congrArg date (pick_range entries)
  | instant unit entries => exact congrArg (instant unit) (pick_range entries)

/-- **A column converts in any order of its rows**, and what it converts to is put in order with
it. -/
theorem convert?_reorder {α : Type} {conversion : Conversion α}
    (h : order.Perm (List.range data.height)) :
    (data.reorder order).convert? conversion = (data.convert? conversion).map (pick order) := by
  cases data with
  | untyped height => exact congrArg some (pick_replicate h none).symm
  | text entries => exact mapM_pick h
  | truth entries => exact mapM_pick h
  | real type entries => exact mapM_pick h
  | whole type entries => exact mapM_pick h
  | date entries => exact mapM_pick h
  | instant unit entries => exact mapM_pick h

end ColumnData

namespace Table

variable {asset : AssetId} {order : List Nat}

/-! ### The index -/

/-- Whether and as what an entry is read does not depend on its row. -/
theorem toOption_readDays {α : Type} (asset : AssetId) (fault : α → IndexFault)
    (read : α → Option Day) (entries : List (Option α)) :
    (readDays asset fault read entries).toOption = entries.mapM fun entry ↦ entry.bind read := by
  rw [readDays, Result.toOption_mapM]
  conv_rhs => rw [← List.zipIdx_map_fst 0 entries, List.mapM_map]
  refine congrArg (List.mapM · entries.zipIdx) (funext fun numbered ↦ ?_)
  obtain ⟨entry, row⟩ := numbered
  cases entry with
  | none => rfl
  | some entry =>
    cases hread : read entry with
    | none => simp [hread, Except.toOption]
    | some day => simp [hread, Except.toOption]

theorem exists_fault_of_readDays {α : Type} {fault : α → IndexFault} {read : α → Option Day}
    {entries : List (Option α)} {error : StoreError}
    (h : readDays asset fault read entries = .error error) :
    ∃ reason, error = .unsupportedIndex asset reason := by
  obtain ⟨⟨entry, row⟩, -, h⟩ := Result.exists_of_mapM_eq_error h
  cases entry with
  | none =>
    cases h
    exact ⟨_, rfl⟩
  | some entry =>
    dsimp only at h
    split at h
    · cases h
    · cases h
      exact ⟨_, rfl⟩

/-- Days that are not read are an index that cannot be used. -/
theorem exists_fault_of_days {data : ColumnData} {error : StoreError}
    (h : days asset data = .error error) : ∃ reason, error = .unsupportedIndex asset reason := by
  cases data with
  | date entries => exact exists_fault_of_readDays h
  | instant unit entries => exact exists_fault_of_readDays h
  | text entries => exact exists_fault_of_readDays h
  | truth entries =>
    cases h
    exact ⟨_, rfl⟩
  | real type entries =>
    cases h
    exact ⟨_, rfl⟩
  | whole type entries =>
    cases h
    exact ⟨_, rfl⟩
  | untyped height =>
    cases h
    exact ⟨_, rfl⟩

theorem toOption_days_reorder {data : ColumnData} (h : order.Perm (List.range data.height)) :
    (days asset (data.reorder order)).toOption = (days asset data).toOption.map (pick order) := by
  have hread : ∀ {α : Type} (fault : α → IndexFault) (read : α → Option Day)
      {entries : List (Option α)}, order.Perm (List.range entries.length) →
      (readDays asset fault read (pick order entries)).toOption =
        (readDays asset fault read entries).toOption.map (pick order) := by
    intro α fault read entries horder
    rw [toOption_readDays, toOption_readDays, mapM_pick horder]
  cases data with
  | date entries => exact hread _ _ h
  | instant unit entries => exact hread _ _ h
  | text entries => exact hread _ _ h
  | truth entries => rfl
  | real type entries => rfl
  | whole type entries => rfl
  | untyped height => rfl

end Table

end DailyBars
