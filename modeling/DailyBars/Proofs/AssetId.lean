import DailyBars.AssetId
import Mathlib

/-!
# The order of assets and the number after one

Assets are in the order of their numbers, which is linear. The number after one is there up to the
greatest of all (`AssetId.isSome_next?_iff`), and the places of a list are numbers as long as the
list is shorter than there are numbers (`AssetId.toInt_ofPlace`).
-/

namespace DailyBars.AssetId

variable {a b next : AssetId}

instance : LinearOrder AssetId where
  le_refl _ := le_iff_toInt.2 le_rfl
  le_trans _ _ _ hab hbc := le_iff_toInt.2 ((le_iff_toInt.1 hab).trans (le_iff_toInt.1 hbc))
  lt_iff_le_not_ge a b := by
    rw [lt_iff_toInt, le_iff_toInt, le_iff_toInt]
    exact lt_iff_le_not_ge
  le_antisymm _ _ hab hba := eq_iff_toInt.2 (le_antisymm (le_iff_toInt.1 hab) (le_iff_toInt.1 hba))
  le_total a b := by
    rw [le_iff_toInt, le_iff_toInt]
    exact le_total _ _
  toDecidableLE := inferInstance
  toDecidableEq := inferInstance
  toDecidableLT := inferInstance

/-- The asset of a place in a list. -/
def ofPlace (n : Nat) : AssetId :=
  ⟨Int64.ofNat n⟩

theorem toInt_ofPlace {n : Nat} (h : n < 2 ^ 63) : (ofPlace n).value.toInt = n :=
  Int64.toInt_ofNat_of_lt h

/-- The next number is one more. -/
theorem next?_eq_some_iff : a.next? = some next ↔ next.value.toInt = a.value.toInt + 1 := by
  rw [next?]
  split
  · rename_i heq
    have hlt := next.value.toInt_lt
    rw [heq, Int64.toInt_maxValue]
    exact iff_of_false (Option.some_ne_none _ ·.symm) (by omega)
  · rename_i hne
    have hlow := a.value.le_toInt
    have hhigh := a.value.toInt_lt
    have hroom : a.value.toInt ≠ 2 ^ 63 - 1 := fun heq ↦
      hne (Int64.toInt_inj.1 (heq.trans Int64.toInt_maxValue.symm))
    have hsum : (a.value + 1).toInt = a.value.toInt + 1 := by
      rw [Int64.toInt_add, Int64.toInt_one]
      exact Int.bmod_eq_of_le (by omega) (by omega)
    rw [Option.some_inj, eq_iff_toInt, hsum, eq_comm]

/-- **There is a next number up to the greatest of all.** -/
theorem isSome_next?_iff : a.next?.isSome = true ↔ a.value.toInt + 1 < 2 ^ 63 := by
  have hlow := a.value.le_toInt
  rw [Option.isSome_iff_exists]
  constructor
  · rintro ⟨next, hnext⟩
    rw [← next?_eq_some_iff.1 hnext]
    exact next.value.toInt_lt
  · intro hroom
    refine ⟨⟨Int64.ofInt (a.value.toInt + 1)⟩, next?_eq_some_iff.2 ?_⟩
    exact Int64.toInt_ofInt_of_le (by omega) hroom

end DailyBars.AssetId
