import DailyBars.Proofs.Store.Transactions
import Mathlib

/-!
# A store asset by asset

The rows of an asset are in the order that they would have in a store of their own
(`Store.assetRows_ofBars`), so an addition does to them what it does there
(`Store.assetRows_append?_congr`). And **a store has nothing besides the rows of its assets**
(`Store.eq_of_assetRows`): rows of the same rank belong to the same asset, and these determine a
sorted list. No order of the days is needed for this, only one of their texts.

A store that is changed in one asset only is told by its base and the rows of that asset
(`Store.IsUpdate`).
-/

namespace DailyBars

theorem Bar.asset_eq_of_sameRank {a b : Bar} (h : a.sameRank b = true) : b.asset = a.asset := by
  obtain ⟨hab, hba⟩ := sameRank_iff.1 h
  exact le_antisymm (asset_le_of_rowLe hba) (asset_le_of_rowLe hab)

namespace Store

variable {store other next later : Store} {bars : List Bar} {asset : AssetId}

/-- **The rows of an asset are in order as in a store of their own.** -/
theorem assetRows_ofBars (bars : List Bar) (asset : AssetId) :
    (ofBars bars).assetRows asset = (ofBars (bars.filter fun bar ↦ bar.asset = asset)).rows := by
  refine eq_of_ranks (assetRows_ordered _ asset) (ofBars _).ordered ?_ fun bar ↦ ?_
  · exact ((rows_ofBars_perm bars).filter _).trans (rows_ofBars_perm _).symm
  · rw [assetRows, List.filter_comm, filter_rows_ofBars, filter_rows_ofBars, List.filter_comm]

/-- The rows of an asset alone are a store, and they are the rows of the asset there. -/
theorem assetRows_ofBars_assetRows (store : Store) (asset : AssetId) :
    (ofBars (store.assetRows asset)).assetRows asset = store.assetRows asset := by
  have hself : ((store.assetRows asset).filter fun bar ↦ bar.asset = asset) =
      store.assetRows asset :=
    List.filter_eq_self.2 fun bar hbar ↦ decide_eq_true (mem_assetRows.1 hbar).2
  have hsame : ofBars (store.assetRows asset) =
      ⟨store.assetRows asset, store.assetRows_ordered asset⟩ :=
    ofBars_rows ⟨store.assetRows asset, store.assetRows_ordered asset⟩
  rw [assetRows_ofBars, hself, hsame]

/-- **What an addition makes of the rows of an asset depends on these rows only.** -/
theorem assetRows_append?_congr (h : store.append? bars = some next)
    (h' : other.append? bars = some later)
    (hrows : store.assetRows asset = other.assetRows asset) :
    next.assetRows asset = later.assetRows asset := by
  rw [assetRows, assetRows] at hrows
  rw [(append?_eq_some_iff.1 h).2, (append?_eq_some_iff.1 h').2, assetRows_ofBars,
    assetRows_ofBars, List.filter_append, List.filter_append, hrows]

/-- **Stores with the same rows of each asset are the same.** -/
theorem eq_of_assetRows (h : ∀ asset, store.assetRows asset = other.assetRows asset) :
    store = other := by
  have hfilter : ∀ (p : Bar → Bool) (asset : AssetId), (∀ bar, p bar = true → bar.asset = asset) →
      store.rows.filter p = other.rows.filter p := by
    intro p asset hp
    have hasset : ∀ store : Store, store.rows.filter p = (store.assetRows asset).filter p := by
      intro store
      rw [assetRows, List.filter_filter]
      refine List.filter_congr fun bar _ ↦ ?_
      cases hbar : p bar with
      | true => simp [hp bar hbar]
      | false => simp
    rw [hasset store, hasset other, h asset]
  have hperm : store.rows.Perm other.rows := by
    refine List.perm_iff_count.2 fun bar ↦ ?_
    rw [List.count_eq_length_filter, List.count_eq_length_filter,
      hfilter _ bar.asset fun row hrow ↦ by rw [eq_of_beq hrow]]
  rw [Store.mk.injEq]
  exact eq_of_ranks store.ordered other.ordered hperm fun bar ↦
    hfilter bar.sameRank bar.asset fun _ ↦ Bar.asset_eq_of_sameRank

/-- The store has the given rows of an asset, and those of a base of all other assets. -/
structure IsUpdate (store base : Store) (asset : AssetId) (rows : List Bar) : Prop where
  rows_eq : store.assetRows asset = rows
  others : ∀ other, other ≠ asset → store.assetRows other = base.assetRows other

theorem isUpdate_self (store : Store) (asset : AssetId) :
    store.IsUpdate store asset (store.assetRows asset) :=
  ⟨rfl, fun _ _ ↦ rfl⟩

/-- A base and the rows of an asset determine the store. -/
theorem IsUpdate.eq {base : Store} {rows : List Bar} (h : store.IsUpdate base asset rows)
    (h' : other.IsUpdate base asset rows) : store = other := by
  refine eq_of_assetRows fun owner ↦ ?_
  by_cases howner : owner = asset
  · rw [howner, h.rows_eq, h'.rows_eq]
  · rw [h.others owner howner, h'.others owner howner]

/-- **Rows that ascend together with the old ones are where they belong.** -/
theorem IsUpdate.append {base : Store} {rows target : List Bar} {p : Day → Prop}
    (h : store.IsUpdate base asset rows) (hnext : store.append? bars = some next)
    (hasset : ∀ bar ∈ bars, bar.asset = asset) (htexts : Day.OrderedTexts p)
    (hperm : (rows ++ bars.map Bar.stored).Perm target) (hdays : ∀ bar ∈ target, p bar.day)
    (hascending : (target.map Bar.day).Pairwise (· < ·)) : next.IsUpdate base asset target where
  rows_eq := by
    have hall : (bars.filter fun bar ↦ bar.asset = asset) = bars :=
      List.filter_eq_self.2 fun bar hbar ↦ decide_eq_true (hasset bar hbar)
    have hrows := assetRows_of_append? hnext asset
    rw [hall, h.rows_eq] at hrows
    exact assetRows_eq_of_ascending htexts (hrows.trans hperm) hdays hascending
  others other hother := by
    rw [← h.others other hother]
    exact assetRows_of_append?_of_ne hnext fun bar hbar heq ↦
      hother (heq.symm.trans (hasset bar hbar))

end Store

end DailyBars
