import DailyBars.Proofs.Store.Spans
import DailyBars.Proofs.Store.Transactions
import Mathlib

/-!
# Stores in the order of days

A store orders the days of an asset by their texts, and all that it says of first and last days are
least and greatest texts. It is chronological (`Store.IsChronological`) when these are the order of
days, and the first and the last of them. For this it is enough that the days of each asset ascend
(`Store.Ascends`), **and that the texts of all stored days are in the order of the days**, because
the bounds of the whole store are taken over the days of different assets
(`Store.Ascends.isChronological`).
-/

namespace DailyBars

/-- The first and the last of some days, in the order of days. -/
structure Day.AreBounds (days : List Day) (first last : Day) : Prop where
  first_mem : first ∈ days
  last_mem : last ∈ days
  first_le : ∀ day ∈ days, first ≤ day
  le_last : ∀ day ∈ days, day ≤ last

theorem Day.areBounds_of_ascending {days : List Day} (h : days.Pairwise (· < ·)) {first last : Day}
    (hfirst : days.head? = some first) (hlast : days.getLast? = some last) :
    AreBounds days first last where
  first_mem := List.mem_of_head? hfirst
  last_mem := List.mem_of_getLast? hlast
  first_le _ hday := head_le_of_ascending h hfirst hday
  le_last _ hday := le_getLast_of_ascending h hlast hday

namespace Store

variable {store : Store}

/-- What a store says of days is said in the order of days: the rows that its columns list, the
bounds of an asset, those in its spans, and those of all assets; and no asset has a day twice. -/
structure IsChronological (store : Store) : Prop where
  rows : store.rows.Pairwise fun a b ↦ a.asset < b.asset ∨ a.asset = b.asset ∧ a.day < b.day
  assetBounds : ∀ asset first last, store.assetBounds? asset = some (first, last) →
    Day.AreBounds ((store.assetRows asset).map Bar.day) first last
  spans : ∀ span ∈ store.spans,
    Day.AreBounds ((store.assetRows span.asset).map Bar.day) span.firstDay span.lastDay
  dayBounds : ∀ first last, store.dayBounds? = some (first, last) →
    Day.AreBounds (store.rows.map Bar.day) first last
  nodup_keys : (store.rows.map Bar.key).Nodup

/-- The rows of the store ascend exactly if those of each asset do. -/
theorem rows_ascending_iff :
    (store.rows.Pairwise fun a b ↦ a.asset < b.asset ∨ a.asset = b.asset ∧ a.day < b.day) ↔
      ∀ asset, ((store.assetRows asset).map Bar.day).Pairwise (· < ·) := by
  constructor
  · intro h asset
    rw [List.pairwise_map]
    refine (h.filter _).imp_of_mem fun {a b} ha hb hab ↦ ?_
    have hasset := (mem_assetRows.1 ha).2.trans (mem_assetRows.1 hb).2.symm
    rcases hab with hlt | ⟨-, hday⟩
    · exact absurd hasset hlt.ne
    · exact hday
  · intro h
    refine List.pairwise_iff_forall_sublist.2 fun {a b} hsub ↦ ?_
    rcases Bar.rowLe_iff.1 (List.pairwise_iff_forall_sublist.1 store.ordered hsub) with
      hlt | ⟨hasset, -⟩
    · exact Or.inl hlt
    · have hpair := (pair_sublist_assetRows hsub hasset).map Bar.day
      exact Or.inr ⟨hasset, List.pairwise_iff_forall_sublist.1 (h b.asset) hpair⟩

/-- All stored days are among certain ones, and those of each asset ascend. -/
structure Ascends (store : Store) (p : Day → Prop) : Prop where
  days : ∀ bar ∈ store.rows, p bar.day
  ascending : ∀ asset, ((store.assetRows asset).map Bar.day).Pairwise (· < ·)

theorem ascends_empty (p : Day → Prop) : empty.Ascends p where
  days := List.forall_mem_nil _
  ascending _ := List.Pairwise.nil

/-- **A store is chronological** if the days of each asset ascend and the texts of all days are in
the order of the days. -/
theorem Ascends.isChronological {p : Day → Prop} (h : store.Ascends p)
    (htexts : Day.OrderedTexts p) : store.IsChronological where
  rows := rows_ascending_iff.2 h.ascending
  assetBounds asset first last hbounds := by
    obtain ⟨hfirst, hlast⟩ := assetBounds?_eq_some_iff.1 hbounds
    exact Day.areBounds_of_ascending (h.ascending asset) hfirst hlast
  spans span hspan := by
    obtain ⟨-, hfirst, hlast⟩ := mem_spans_iff.1 hspan
    exact Day.areBounds_of_ascending (h.ascending span.asset) hfirst hlast
  dayBounds first last hbounds := by
    -- The days of all assets together do not ascend, so the order of the texts is needed here.
    obtain ⟨⟨hfirst, hleast⟩, hlast, hgreatest⟩ := Day.textBounds?_spec hbounds
    have hall : ∀ day ∈ store.rows.map Bar.day, p day := List.forall_mem_map.2 h.days
    exact ⟨hfirst, hlast,
      fun day hday ↦ (htexts.textLe_iff_le (hall first hfirst) (hall day hday)).1 (hleast day hday),
      fun day hday ↦ (htexts.textLe_iff_le (hall day hday) (hall last hlast)).1
        (hgreatest day hday)⟩
  nodup_keys := nodup_keys_iff.2 fun asset ↦ (h.ascending asset).nodup

end Store

end DailyBars
