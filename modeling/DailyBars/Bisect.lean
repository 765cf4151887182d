/-!
# Bisection

`partitionPoint below xs` looks for the position where `below` stops holding in an array, by
halving. `partitionPoint_eq` says that where `below` holds exactly on the first `k` entries the
answer is `k`. On an array that `below` does not split in two the answer is still fixed by the
positions that are probed: the middle of the remaining stretch, which keeps its upper part when
`below` holds there and its lower part when it does not.
-/

namespace DailyBars

/-- Halves the stretch of `size` positions from `base` until one is left, and steps past that one
when `below` holds there. -/
def bisect (below : Nat → Bool) (base size : Nat) : Nat :=
  if 1 < size then
    let half := size / 2
    bisect below (if below (base + half) then base + half else base) (size - half)
  else if below base then base + 1 else base
termination_by size
decreasing_by omega

/-- The position where `below` stops holding. -/
def partitionPoint {α : Type} (below : α → Bool) (xs : Array α) : Nat :=
  if xs.isEmpty then 0 else bisect (fun i ↦ xs[i]?.any below) 0 xs.size

theorem bisect_eq {below : Nat → Bool} {k base size : Nat} (hsize : 0 < size)
    (hlow : base ≤ k) (hhigh : k ≤ base + size)
    (hbelow : ∀ i, base ≤ i → i < base + size → below i = decide (i < k)) :
    bisect below base size = k := by
  fun_induction bisect below base size with
  | case1 base size hlt half ih =>
    have hhalf : half = size / 2 := rfl
    have hmid : (if below (base + half) then base + half else base) =
        if base + half < k then base + half else base := by
      simp [hbelow (base + half) (by omega) (by omega)]
    simp only [dite_eq_ite, hmid] at ih ⊢
    by_cases hk : base + half < k
    · rw [if_pos hk] at ih ⊢
      exact ih (by omega) (by omega) (by omega) fun i hi hi' ↦ hbelow i (by omega) (by omega)
    · rw [if_neg hk] at ih ⊢
      exact ih (by omega) (by omega) (by omega) fun i hi hi' ↦ hbelow i (by omega) (by omega)
  | case2 base size hlt htrue =>
    have := hbelow base (Nat.le_refl _) (by omega)
    rw [htrue] at this
    have := of_decide_eq_true this.symm
    omega
  | case3 base size hlt hfalse =>
    have := hbelow base (Nat.le_refl _) (by omega)
    have hnot : ¬base < k := by
      intro h
      simp [h] at this
      exact hfalse this
    omega

/-- Where `below` holds exactly on the first `k` entries, the partition point is `k`. -/
theorem partitionPoint_eq {α : Type} {below : α → Bool} {xs : Array α} {k : Nat}
    (hk : k ≤ xs.size) (hbelow : ∀ i (h : i < xs.size), below xs[i] = decide (i < k)) :
    partitionPoint below xs = k := by
  unfold partitionPoint
  split
  · rename_i hempty
    have : xs.size = 0 := by simpa using hempty
    omega
  · rename_i hempty
    have hpos : 0 < xs.size := by
      rcases Nat.eq_zero_or_pos xs.size with h | h
      · simp [Array.isEmpty, h] at hempty
      · exact h
    refine bisect_eq hpos (Nat.zero_le _) (by omega) fun i _ hi ↦ ?_
    rw [Array.getElem?_eq_getElem (by omega)]
    exact hbelow i (by omega)

end DailyBars
