import DailyBars.Proofs.Store.Rows
import Mathlib

/-!
# Additions row by row

Bars are added in a transaction: they are inserted one after the other, and the first one that is
refused takes back those before it. `Store.append?` says what is left of a transaction in the end,
and that is the same (`Store.append?_eq_foldlM`).

The rows between two insertions are in order as well, so they are sorted once for each row, and not
once for all. **A stable sort does not notice**: a sorted list is determined by its bars of each
rank in their order (`Store.eq_of_ranks`), and sorting leaves that order as it was
(`Store.filter_rows_ofBars`).
-/

namespace DailyBars

namespace Bar

/-- Each of the bars may stand before the other. -/
def sameRank (a b : Bar) : Bool :=
  a.rowLe b && b.rowLe a

theorem sameRank_iff {a b : Bar} : a.sameRank b = true ↔ a.rowLe b = true ∧ b.rowLe a = true :=
  Bool.and_eq_true_iff

theorem rowLe_refl (bar : Bar) : bar.rowLe bar = true := by
  simpa using rowLe_total bar bar

end Bar

namespace Store

variable {store : Store} {bars : List Bar}

/-! ### Stable sorting -/

/-- **Sorting keeps the bars of each rank in their order.** -/
theorem filter_rows_ofBars (bars : List Bar) (bar : Bar) :
    (ofBars bars).rows.filter bar.sameRank = bars.filter bar.sameRank := by
  have hsorted : (bars.filter bar.sameRank).Pairwise fun a b ↦ a.rowLe b = true := by
    refine List.pairwise_of_forall_mem_list fun a ha b hb ↦ ?_
    have ha' := Bar.sameRank_iff.1 (List.mem_filter.1 ha).2
    have hb' := Bar.sameRank_iff.1 (List.mem_filter.1 hb).2
    exact Bar.rowLe_trans ha'.2 hb'.1
  have hsub := (sublist_rows_ofBars hsorted List.filter_sublist).filter bar.sameRank
  simp only [List.filter_filter, Bool.and_self] at hsub
  exact (hsub.eq_of_length ((rows_ofBars_perm bars).filter _).length_eq.symm).symm

/-- **A sorted list is determined by its bars of each rank.** -/
theorem eq_of_ranks {xs ys : List Bar} (hxs : xs.Pairwise fun a b ↦ a.rowLe b = true)
    (hys : ys.Pairwise fun a b ↦ a.rowLe b = true) (hperm : xs.Perm ys)
    (hranks : ∀ bar : Bar, xs.filter bar.sameRank = ys.filter bar.sameRank) : xs = ys := by
  induction xs generalizing ys with
  | nil => exact hperm.nil_eq
  | cons x rest ih =>
    obtain ⟨hx, hrest⟩ := List.pairwise_cons.1 hxs
    cases ys with
    | nil => exact absurd hperm.symm.nil_eq.symm (List.cons_ne_nil x rest)
    | cons y later =>
      obtain ⟨hy, hlater⟩ := List.pairwise_cons.1 hys
      -- The first bars may stand before all others, so they have the same rank.
      have hxy : x.rowLe y = true := by
        rcases List.mem_cons.1 (hperm.mem_iff.2 List.mem_cons_self) with rfl | hmem
        · exact Bar.rowLe_refl y
        · exact hx y hmem
      have hyx : y.rowLe x = true := by
        rcases List.mem_cons.1 (hperm.mem_iff.1 List.mem_cons_self) with rfl | hmem
        · exact Bar.rowLe_refl x
        · exact hy x hmem
      have hfirst := hranks x
      rw [List.filter_cons_of_pos (Bar.sameRank_iff.2 ⟨Bar.rowLe_refl x, Bar.rowLe_refl x⟩),
        List.filter_cons_of_pos (Bar.sameRank_iff.2 ⟨hxy, hyx⟩)] at hfirst
      obtain rfl := (List.cons.inj hfirst).1
      congr 1
      refine ih hrest hlater (hperm.cons_inv) fun bar ↦ ?_
      have hbar := hranks bar
      simp only [List.filter_cons] at hbar
      split at hbar
      · exact (List.cons.inj hbar).2
      · exact hbar

/-- What is sorted already may be sorted again, together with more. -/
theorem ofBars_rows_append (bars more : List Bar) :
    ofBars ((ofBars bars).rows ++ more) = ofBars (bars ++ more) := by
  have hrows : (ofBars ((ofBars bars).rows ++ more)).rows = (ofBars (bars ++ more)).rows := by
    refine eq_of_ranks (ofBars _).ordered (ofBars _).ordered ?_ fun bar ↦ ?_
    · exact (rows_ofBars_perm _).trans
        (((rows_ofBars_perm bars).append_right more).trans (rows_ofBars_perm _).symm)
    · rw [filter_rows_ofBars, filter_rows_ofBars, List.filter_append, filter_rows_ofBars,
        List.filter_append]
  rw [Store.mk.injEq]
  exact hrows

/-! ### Insertions -/

/-- The store with one row inserted, after those of the same asset and day. A price that is not a
number is refused. -/
def insert? (store : Store) (bar : Bar) : Option Store :=
  if bar.hasNaN then none else some (ofBars (store.rows ++ [bar.stored]))

theorem insert?_eq_none_iff {bar : Bar} : store.insert? bar = none ↔ bar.hasNaN = true := by
  rw [insert?]
  split <;> simp_all

/-- **Adding bars is inserting them one after the other**, where one that is refused takes back
those before it. -/
theorem append?_eq_foldlM (store : Store) (bars : List Bar) :
    store.append? bars = bars.foldlM insert? store := by
  induction bars generalizing store with
  | nil => exact append?_nil store
  | cons bar rest ih =>
    rw [List.foldlM_cons]
    cases hnan : bar.hasNaN with
    | true =>
      rw [insert?_eq_none_iff.2 hnan, append?, List.any_cons, hnan, Bool.true_or]
      rfl
    | false =>
      have hbar : store.insert? bar = some (ofBars (store.rows ++ [bar.stored])) := by
        rw [insert?, hnan, if_neg Bool.false_ne_true]
      have hrest : (ofBars (store.rows ++ [bar.stored])).append? rest =
          rest.foldlM insert? (ofBars (store.rows ++ [bar.stored])) := ih _
      rw [append?, ofBars_rows_append, List.append_assoc] at hrest
      rw [hbar, append?, List.any_cons, hnan, Bool.false_or]
      exact hrest

/-- **A transaction with a price that is no number gets to the first such bar**: all bars before it
are inserted, and it is refused. -/
theorem exists_insert?_eq_none (store : Store) (h : ∃ bar ∈ bars, bar.hasNaN = true) :
    ∃ earlier bar later working, bars = earlier ++ bar :: later ∧ bar.hasNaN = true ∧
      earlier.foldlM insert? store = some working ∧
      working.rows.Perm (store.rows ++ earlier.map Bar.stored) ∧ working.insert? bar = none := by
  obtain ⟨bar, hbar⟩ := Option.ne_none_iff_exists'.1
    (mt List.find?_eq_none.1 (by simpa using h) : bars.find? Bar.hasNaN ≠ none)
  obtain ⟨hnan, earlier, later, hbars, hearlier⟩ := List.find?_eq_some_iff_append.1 hbar
  obtain ⟨working, hworking⟩ := store.exists_append?_eq fun other hother ↦ by
    simpa using hearlier other hother
  exact ⟨earlier, bar, later, working, hbars, hnan,
    (append?_eq_foldlM store earlier).symm.trans hworking, rows_perm_of_append? hworking,
    insert?_eq_none_iff.2 hnan⟩

theorem append?_eq_none_iff : store.append? bars = none ↔ ∃ bar ∈ bars, bar.hasNaN = true := by
  rw [append?, ← List.any_eq_true]
  split <;> simp_all

end Store

end DailyBars
