import DailyBars.Proofs.AssetId
import DailyBars.Writer
import Mathlib

/-!
# Values by asset

Values are put in the order of their assets, and of several for one asset the last one stays
(`Writer.mem_byAsset_iff`). So **a value is left out wherever a later one has its asset**, and none
is left out exactly if the assets are pairwise different (`Writer.length_byAsset_eq_iff`).
-/

namespace DailyBars.Writer

variable {α : Type} {asset other : AssetId} {value kept : α} {values : List (AssetId × α)}

/-- Putting a value in leaves those of all other assets. -/
theorem mem_putByAsset_iff (h : values.Pairwise (·.1 < ·.1)) :
    (other, kept) ∈ putByAsset asset value values ↔
      other = asset ∧ kept = value ∨ other ≠ asset ∧ (other, kept) ∈ values := by
  induction values with
  | nil => simp [putByAsset]
  | cons first rest ih =>
    obtain ⟨found, old⟩ := first
    obtain ⟨hfirst, hrest⟩ := List.pairwise_cons.1 h
    rw [putByAsset]
    split
    · rename_i hlt
      have hbehind : (other, kept) ∈ (found, old) :: rest → other ≠ asset := by
        intro hmem
        rcases List.mem_cons.1 hmem with heq | hmem
        · cases heq
          exact hlt.ne'
        · exact (hlt.trans (hfirst _ hmem)).ne'
      rw [List.mem_cons, Prod.mk.injEq]
      exact or_congr_right ⟨fun hmem ↦ ⟨hbehind hmem, hmem⟩, And.right⟩
    · split
      · rename_i heq
        have hbehind : (other, kept) ∈ rest → other ≠ asset := fun hmem ↦
          heq ▸ (hfirst _ hmem).ne'
        rw [List.mem_cons, List.mem_cons, Prod.mk.injEq, Prod.mk.injEq, ← heq]
        refine or_congr_right ⟨fun hmem ↦ ⟨hbehind hmem, .inr hmem⟩, ?_⟩
        rintro ⟨hne, hsame | hmem⟩
        · exact absurd hsame.1 hne
        · exact hmem
      · rename_i hne
        rw [List.mem_cons, List.mem_cons, ih hrest, Prod.mk.injEq]
        constructor
        · rintro (⟨rfl, rfl⟩ | hsame | ⟨hother, hmem⟩)
          · exact .inr ⟨Ne.symm hne, .inl ⟨rfl, rfl⟩⟩
          · exact .inl hsame
          · exact .inr ⟨hother, .inr hmem⟩
        · rintro (hsame | ⟨hother, hsame | hmem⟩)
          · exact .inr (.inl hsame)
          · exact .inl hsame
          · exact .inr (.inr ⟨hother, hmem⟩)

theorem pairwise_putByAsset (h : values.Pairwise (·.1 < ·.1)) :
    (putByAsset asset value values).Pairwise (·.1 < ·.1) := by
  induction values with
  | nil => exact List.pairwise_singleton _ _
  | cons first rest ih =>
    obtain ⟨found, old⟩ := first
    obtain ⟨hfirst, hrest⟩ := List.pairwise_cons.1 h
    rw [putByAsset]
    split
    · rename_i hlt
      refine List.pairwise_cons.2 ⟨fun entry hentry ↦ ?_, h⟩
      rcases List.mem_cons.1 hentry with rfl | hentry
      · exact hlt
      · exact hlt.trans (hfirst entry hentry)
    · rename_i hnot
      split
      · rename_i heq
        exact List.pairwise_cons.2 ⟨fun entry hentry ↦ heq ▸ hfirst entry hentry, hrest⟩
      · rename_i hne
        refine List.pairwise_cons.2 ⟨fun entry hentry ↦ ?_, ih hrest⟩
        rcases (mem_putByAsset_iff hrest).1 hentry with ⟨heq, -⟩ | ⟨-, hmem⟩
        · exact heq ▸ lt_of_le_of_ne (not_lt.1 hnot) (Ne.symm hne)
        · exact hfirst entry hmem

theorem byAsset_concat (values : List (AssetId × α)) (asset : AssetId) (value : α) :
    byAsset (values ++ [(asset, value)]) = putByAsset asset value (byAsset values) := by
  rw [byAsset, List.foldl_append]
  rfl

/-- **Values by asset are in the order of the assets**, one for each. -/
theorem pairwise_byAsset (values : List (AssetId × α)) :
    (byAsset values).Pairwise (·.1 < ·.1) := by
  induction values using List.reverseRecOn with
  | nil => exact .nil
  | append_singleton values entry ih =>
    rw [byAsset_concat]
    exact pairwise_putByAsset ih

/-- **The value of an asset is the last one for it.** -/
theorem mem_byAsset_iff : (asset, value) ∈ byAsset values ↔
    ∃ before after, values = before ++ (asset, value) :: after ∧
      ∀ entry ∈ after, entry.1 ≠ asset := by
  induction values using List.reverseRecOn with
  | nil => simp [byAsset]
  | append_singleton values entry ih =>
    obtain ⟨last, own⟩ := entry
    rw [byAsset_concat, mem_putByAsset_iff (pairwise_byAsset values), ih]
    constructor
    · rintro (⟨rfl, rfl⟩ | ⟨hne, before, after, rfl, hafter⟩)
      · exact ⟨values, [], rfl, fun _ hmem ↦ absurd hmem List.not_mem_nil⟩
      · refine ⟨before, after ++ [(last, own)], by simp, fun entry hentry ↦ ?_⟩
        rcases List.mem_append.1 hentry with hentry | hentry
        · exact hafter entry hentry
        · rw [List.mem_singleton.1 hentry]
          exact hne.symm
    · rintro ⟨before, after, heq, hafter⟩
      rcases List.eq_nil_or_concat after with rfl | ⟨after, entry, rfl⟩
      · obtain ⟨-, hsame⟩ := List.append_inj' heq rfl
        cases hsame
        exact .inl ⟨rfl, rfl⟩
      · rw [List.concat_eq_append, ← List.cons_append, ← List.append_assoc] at heq
        rw [List.concat_eq_append, List.forall_mem_append] at hafter
        obtain ⟨rfl, hsame⟩ := List.append_inj' heq rfl
        cases hsame
        exact .inr ⟨(hafter.2 _ (List.mem_singleton_self _)).symm, before, after, rfl, hafter.1⟩

/-- Every asset of a value has one. -/
theorem mem_map_byAsset_iff :
    asset ∈ (byAsset values).map Prod.fst ↔ asset ∈ values.map Prod.fst := by
  induction values using List.reverseRecOn with
  | nil => rfl
  | append_singleton values entry ih =>
    obtain ⟨last, own⟩ := entry
    have hput : asset ∈ (putByAsset last own (byAsset values)).map Prod.fst ↔
        asset = last ∨ asset ∈ (byAsset values).map Prod.fst := by
      constructor
      · rintro hmem
        obtain ⟨⟨_, kept⟩, hentry, rfl⟩ := List.mem_map.1 hmem
        rcases (mem_putByAsset_iff (pairwise_byAsset values)).1 hentry with ⟨heq, -⟩ | ⟨-, hold⟩
        · exact .inl heq
        · exact .inr (List.mem_map_of_mem hold)
      · intro hmem
        by_cases heq : asset = last
        · exact List.mem_map.2 ⟨(asset, own),
            (mem_putByAsset_iff (pairwise_byAsset values)).2 (.inl ⟨heq, rfl⟩), rfl⟩
        · obtain ⟨⟨_, kept⟩, hentry, rfl⟩ := List.mem_map.1 (hmem.resolve_left heq)
          exact List.mem_map.2 ⟨_,
            (mem_putByAsset_iff (pairwise_byAsset values)).2 (.inr ⟨heq, hentry⟩), rfl⟩
    rw [byAsset_concat, hput, ih, List.map_append, List.mem_append, List.map_singleton,
      List.mem_singleton, or_comm]

/-- **No value is left out exactly if the assets are pairwise different.** -/
theorem length_byAsset_eq_iff (values : List (AssetId × α)) :
    (byAsset values).length = values.length ↔ (values.map Prod.fst).Nodup := by
  have hnodup : ((byAsset values).map Prod.fst).Nodup :=
    List.pairwise_map.2 ((pairwise_byAsset values).imp ne_of_lt)
  have hperm : ((byAsset values).map Prod.fst).Perm (values.map Prod.fst).dedup :=
    (List.perm_ext_iff_of_nodup hnodup (List.nodup_dedup _)).2 fun asset ↦ by
      rw [mem_map_byAsset_iff, List.mem_dedup]
  rw [← List.length_map (f := Prod.fst), hperm.length_eq, ← List.dedup_eq_self]
  constructor
  · intro hlength
    exact (List.dedup_sublist _).eq_of_length (hlength.trans (List.length_map _).symm)
  · intro hself
    rw [hself, List.length_map]

end DailyBars.Writer
