import DailyBars.Proofs.Day.Ascending
import DailyBars.Proofs.Writer.Plan
import Mathlib

/-!
# Bars in the order of their days

The bars of the rows are put in order by day at the end, and a day that comes twice is found there
as a day that is equal to its neighbour. The sorted list has no descents, so **neighbours are equal
exactly where a day comes more than once** (`Table.mem_neighbours_iff`), and the days that are
listed are these days (`Table.ListsRepeated`).

What becomes of the bars is therefore said by the rows without their order
(`Table.inOrder_eq_ok_iff`, `Table.inOrder_eq_error_iff`), and another order makes no difference
(`Table.inOrder_of_perm`).
-/

namespace DailyBars

namespace Table

variable {asset : AssetId} {bars : List Bar}

/-! ### Days that repeat -/

/-- A list of the days that others hold more than once: ascending, each of them once. -/
structure ListsRepeated (repeated days : List Day) : Prop where
  ascending : repeated.Pairwise (· < ·)
  mem_iff : ∀ day, day ∈ repeated ↔ 2 ≤ days.count day

/-- Of each two equal neighbours the first is kept, in the order of the list. -/
theorem filterMap_sublist (days : List Day) :
    ((days.zip days.tail).filterMap fun (day, next) ↦ if day = next then some day else none).Sublist
      days := by
  induction days with
  | nil => exact List.nil_sublist []
  | cons first rest ih =>
    cases rest with
    | nil => exact List.nil_sublist _
    | cons second rest =>
      rw [List.tail_cons, List.zip_cons_cons, List.filterMap_cons]
      dsimp only
      split
      · rename_i hnone
        exact ih.cons first
      · rename_i hsome
        split at hsome
        · cases hsome
          exact ih.cons_cons first
        · cases hsome

/-- In a list without descents equal days are neighbours. -/
theorem mem_neighbours_iff {days : List Day} (h : days.Pairwise (· ≤ ·)) (day : Day) :
    (day, day) ∈ Writer.neighbours days ↔ 2 ≤ days.count day := by
  induction days with
  | nil => simp [Writer.neighbours]
  | cons first rest ih =>
    obtain ⟨hfirst, hrest⟩ := List.pairwise_cons.1 h
    cases rest with
    | nil =>
      have hcount : [first].count day ≤ 1 := List.count_le_length
      refine iff_of_false List.not_mem_nil (by omega)
    | cons second rest =>
      have hcount : (first :: second :: rest).count day =
          (second :: rest).count day + if first == day then 1 else 0 := List.count_cons
      rw [Writer.neighbours_cons_cons, List.mem_cons, ih hrest, hcount]
      by_cases hday : first = day
      · subst hday
        -- The first day comes again exactly if the second is the same.
        have hsecond : first = second ↔ 0 < (second :: rest).count first := by
          rw [List.count_pos_iff]
          constructor
          · rintro rfl
            exact List.mem_cons_self
          · intro hmem
            refine le_antisymm (hfirst second List.mem_cons_self) ?_
            rcases List.mem_cons.1 hmem with heq | hlater
            · exact heq ▸ le_refl _
            · exact (List.pairwise_cons.1 hrest).1 first hlater
        rw [Prod.mk.injEq, hsecond, if_pos (beq_self_eq_true first), eq_self_iff_true, true_and]
        omega
      · have hne : ¬(day, day) = (first, second) := fun heq ↦ hday (congrArg Prod.fst heq).symm
        rw [if_neg (by simpa using hday), Nat.add_zero, or_iff_right hne]

theorem listsRepeated_repeatedDays {days : List Day} (h : days.Pairwise (· ≤ ·)) :
    ListsRepeated (repeatedDays days) days where
  ascending := DayList.pairwise_dropRepeats (h.sublist (filterMap_sublist days))
  mem_iff day := by rw [Writer.mem_repeatedDays, mem_neighbours_iff h]

theorem ListsRepeated.eq {repeated others days : List Day} (h : ListsRepeated repeated days)
    (hothers : ListsRepeated others days) : repeated = others :=
  List.Pairwise.eq_of_mem_iff h.ascending hothers.ascending fun day ↦
    (h.mem_iff day).trans (hothers.mem_iff day).symm

/-! ### Bars in order -/

/-- What becomes of the bars of the rows. -/
def inOrder (asset : AssetId) (unsorted : List Bar) : Except StoreError (List Bar) := do
  let bars := unsorted.mergeSort fun a b ↦ a.day ≤ b.day
  let repeated := repeatedDays (bars.map Bar.day)
  if !repeated.isEmpty then .error (.duplicateDays asset repeated)
  return bars

theorem bars_eq (table : Table) (asset : AssetId) :
    table.bars asset = table.rowBars asset >>= inOrder asset := rfl

/-- **Bars are put in order, or the days that repeat are listed.** -/
theorem inOrder_cases (asset : AssetId) (unsorted : List Bar) :
    (∃ bars, inOrder asset unsorted = .ok bars ∧ bars.Perm unsorted ∧
      (bars.map Bar.day).Pairwise (· < ·)) ∨
    ∃ repeated, inOrder asset unsorted = .error (.duplicateDays asset repeated) ∧ repeated ≠ [] ∧
      ListsRepeated repeated (unsorted.map Bar.day) := by
  obtain ⟨bars, hbars⟩ : ∃ bars, bars = unsorted.mergeSort fun a b ↦ a.day ≤ b.day := ⟨_, rfl⟩
  have hperm : bars.Perm unsorted := hbars ▸ List.mergeSort_perm _ _
  have hsorted : (bars.map Bar.day).Pairwise (· ≤ ·) := by
    rw [List.pairwise_map, hbars]
    refine (List.pairwise_mergeSort ?_ ?_ unsorted).imp fun h ↦ by simpa using h
    · intro a b c hab hbc
      simpa using le_trans (by simpa using hab) (by simpa using hbc)
    · intro a b
      simpa using le_total a.day b.day
  have hlists := listsRepeated_repeatedDays hsorted
  rw [inOrder, ← hbars]
  dsimp only
  cases hrepeated : repeatedDays (bars.map Bar.day) with
  | nil =>
    rw [hrepeated] at hlists
    have hnodup : (bars.map Bar.day).Nodup := by
      refine List.nodup_iff_count_le_one.2 fun day ↦ ?_
      have hnot := mt (hlists.mem_iff day).2 List.not_mem_nil
      omega
    refine .inl ⟨bars, rfl, hperm, (hsorted.and hnodup).imp fun ⟨hle, hne⟩ ↦ ?_⟩
    exact lt_of_le_of_ne hle hne
  | cons first later =>
    rw [hrepeated] at hlists
    refine .inr ⟨_, rfl, List.cons_ne_nil _ _, hlists.ascending, fun day ↦ ?_⟩
    rw [hlists.mem_iff, (hperm.map Bar.day).count_eq]

theorem ListsRepeated.eq_nil {repeated days : List Day} (h : ListsRepeated repeated days)
    (hdays : days.Nodup) : repeated = [] := by
  refine List.eq_nil_iff_forall_not_mem.2 fun day hday ↦ ?_
  have htwice := (h.mem_iff day).1 hday
  have honce := List.nodup_iff_count_le_one.1 hdays day
  omega

/-- Bars with ascending days are put in no other order. -/
theorem eq_of_ascending {bars others : List Bar} (hperm : bars.Perm others)
    (hbars : (bars.map Bar.day).Pairwise (· < ·))
    (hothers : (others.map Bar.day).Pairwise (· < ·)) : bars = others := by
  refine hperm.eq_of_pairwise (fun a b _ _ hab hba ↦ ?_) (List.pairwise_map.1 hbars)
    (List.pairwise_map.1 hothers)
  exact absurd (lt_trans hab hba) (lt_irrefl _)

theorem inOrder_eq_ok_iff {unsorted : List Bar} : inOrder asset unsorted = .ok bars ↔
    bars.Perm unsorted ∧ (bars.map Bar.day).Pairwise (· < ·) := by
  obtain ⟨found, hok, hperm, hascending⟩ | ⟨repeated, herror, hne, hlists⟩ :=
    inOrder_cases asset unsorted
  · rw [hok, Except.ok.injEq]
    constructor
    · rintro rfl
      exact ⟨hperm, hascending⟩
    · rintro ⟨hbars, hother⟩
      exact eq_of_ascending (hperm.trans hbars.symm) hascending hother
  · refine iff_of_false (by rw [herror]; rintro ⟨⟩) fun ⟨hbars, hother⟩ ↦ hne ?_
    exact hlists.eq_nil ((hbars.map Bar.day).nodup_iff.1 hother.nodup)

theorem inOrder_eq_error_iff {unsorted : List Bar} {error : StoreError} :
    inOrder asset unsorted = .error error ↔ ∃ repeated, error = .duplicateDays asset repeated ∧
      repeated ≠ [] ∧ ListsRepeated repeated (unsorted.map Bar.day) := by
  obtain ⟨found, hok, hperm, hascending⟩ | ⟨repeated, herror, hne, hlists⟩ :=
    inOrder_cases asset unsorted
  · refine iff_of_false (by rw [hok]; rintro ⟨⟩) fun ⟨repeated, _, hne, hlists⟩ ↦ hne ?_
    exact hlists.eq_nil ((hperm.map Bar.day).nodup_iff.1 hascending.nodup)
  · rw [herror, Except.error.injEq]
    constructor
    · rintro rfl
      exact ⟨repeated, rfl, hne, hlists⟩
    · rintro ⟨others, rfl, -, hothers⟩
      rw [hlists.eq hothers]

/-- **The order of the rows does not matter.** -/
theorem inOrder_of_perm {unsorted others : List Bar} (h : unsorted.Perm others) :
    inOrder asset unsorted = inOrder asset others := by
  cases hothers : inOrder asset others with
  | ok bars =>
    rw [inOrder_eq_ok_iff] at hothers ⊢
    exact ⟨hothers.1.trans h.symm, hothers.2⟩
  | error error =>
    rw [inOrder_eq_error_iff] at hothers ⊢
    obtain ⟨repeated, rfl, hne, hlists⟩ := hothers
    refine ⟨repeated, rfl, hne, hlists.ascending, fun day ↦ ?_⟩
    rw [hlists.mem_iff, (h.map Bar.day).count_eq]

end Table

end DailyBars
