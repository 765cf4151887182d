import DailyBars.Proofs.Store.Rows
import Mathlib

/-!
# Blocks and spans

In the order of a store the rows of an asset stand together: before them are the rows of lesser
assets, after them those of greater ones (`Store.exists_rows_eq`). So the block of an asset starts
at the number of rows of lesser assets (`Store.rowStart`), and a row of the asset is found in the
store by adding its place among the rows of the asset (`Store.getElem?_rows`).

The spans of a store are the summaries of its blocks, one for each asset with rows, ascending
(`Store.mem_spans_iff`). **The start of a block is the number of rows of the spans before it**
(`Store.rowsBefore_spans`), which holds of bars in any order.
-/

namespace DailyBars

/-! ### Blocks -/

/-- A list in which a property passes on to earlier members is cut in two by the property. -/
theorem filter_append_filter_not {α : Type} {p : α → Bool} {list : List α}
    (h : list.Pairwise fun a b ↦ p b = true → p a = true) :
    (list.filter p ++ list.filter fun a ↦ !p a) = list := by
  induction list with
  | nil => rfl
  | cons first rest ih =>
    obtain ⟨hfirst, hrest⟩ := List.pairwise_cons.1 h
    by_cases hp : p first = true
    · rw [List.filter_cons_of_pos hp, List.filter_cons_of_neg (by simp [hp]), List.cons_append,
        ih hrest]
    · -- Nothing after `first` has the property, since it would pass on to `first`.
      have hnone : rest.filter p = [] :=
        List.filter_eq_nil_iff.2 fun b hb hpb ↦ hp (hfirst b hb hpb)
      have hall := ih hrest
      rw [hnone, List.nil_append] at hall
      rw [List.filter_cons_of_neg hp, List.filter_cons_of_pos (by simp [hp]), hnone, hall,
        List.nil_append]

namespace Store

variable {store : Store} {asset : AssetId}

/-- The place of the first row of an asset. -/
def rowStart (store : Store) (asset : AssetId) : Nat :=
  store.rows.countP fun bar ↦ bar.asset < asset

/-- **The rows of an asset stand together**, after those of lesser assets. -/
theorem exists_rows_eq (store : Store) (asset : AssetId) :
    ∃ before after, store.rows = before ++ (store.assetRows asset ++ after) ∧
      before.length = store.rowStart asset := by
  have hassets : store.rows.Pairwise fun a b ↦ a.asset ≤ b.asset :=
    store.ordered.imp Bar.asset_le_of_rowLe
  have hlesser : store.rows.Pairwise fun a b ↦
      decide (b.asset < asset) = true → decide (a.asset < asset) = true := by
    refine hassets.imp fun {a b} hle hlt ↦ ?_
    rw [decide_eq_true_eq] at *
    exact hle.trans_lt hlt
  -- Among the rows that are not of a lesser asset, those of the asset come first.
  have hsame : (store.rows.filter fun bar ↦ !decide (bar.asset < asset)).Pairwise fun a b ↦
      decide (b.asset = asset) = true → decide (a.asset = asset) = true := by
    refine (hassets.filter _).imp_of_mem fun {a b} ha hb hle heq ↦ ?_
    have hnot := (List.mem_filter.1 ha).2
    rw [Bool.not_eq_true', decide_eq_false_iff_not, not_lt] at hnot
    rw [decide_eq_true_eq] at *
    exact le_antisymm (heq ▸ hle) hnot
  have hblock : ((store.rows.filter fun bar ↦ !decide (bar.asset < asset)).filter fun bar ↦
      bar.asset = asset) = store.assetRows asset := by
    rw [List.filter_filter, assetRows]
    refine List.filter_congr fun bar _ ↦ ?_
    by_cases heq : bar.asset = asset
    · simp [heq]
    · simp [heq]
  refine ⟨_, (store.rows.filter fun bar ↦ !decide (bar.asset < asset)).filter fun bar ↦
    !decide (bar.asset = asset), ?_, (List.countP_eq_length_filter).symm⟩
  rw [← hblock, filter_append_filter_not hsame, filter_append_filter_not hlesser]

/-- A row of an asset is found at its place in the block. -/
theorem getElem?_rows {k : Nat} (hk : k < (store.assetRows asset).length) :
    store.rows[store.rowStart asset + k]? = (store.assetRows asset)[k]? := by
  obtain ⟨before, after, hrows, hstart⟩ := store.exists_rows_eq asset
  rw [hrows, ← hstart, List.getElem?_append_right (Nat.le_add_right _ _), Nat.add_sub_cancel_left,
    List.getElem?_append_left hk]

theorem rowStart_add_le (store : Store) (asset : AssetId) :
    store.rowStart asset + (store.assetRows asset).length ≤ store.rows.length := by
  obtain ⟨before, after, hrows, hstart⟩ := store.exists_rows_eq asset
  rw [hrows, List.length_append, List.length_append, hstart]
  omega

/-- Successive rows of an asset are successive rows of the store. -/
theorem take_drop_rows {skip take : Nat} (h : skip + take ≤ (store.assetRows asset).length) :
    (store.rows.drop (store.rowStart asset + skip)).take take =
      ((store.assetRows asset).drop skip).take take := by
  obtain ⟨before, after, hrows, hstart⟩ := store.exists_rows_eq asset
  rw [hrows, ← hstart, List.drop_append, List.drop_eq_nil_of_le (by omega), List.nil_append,
    Nat.add_sub_cancel_left, List.drop_append_of_le_length (by omega),
    List.take_append_of_le_length (by rw [List.length_drop]; omega)]

end Store

/-! ### Spans -/

namespace Span

variable {span : Span} {spans : List Span} {bar : Bar} {bars : List Bar} {asset : AssetId}

/-- The span says how many bars of its asset there are, and the first and the last of their days. -/
structure Summarizes (span : Span) (bars : List Bar) : Prop where
  rows : span.rows = (bars.filter fun bar ↦ bar.asset = span.asset).length
  first : ((bars.filter fun bar ↦ bar.asset = span.asset).map Bar.day).head? = some span.firstDay
  last : ((bars.filter fun bar ↦ bar.asset = span.asset).map Bar.day).getLast? = some span.lastDay

/-- An asset has one summary. -/
theorem Summarizes.eq {other : Span} (h : span.Summarizes bars) (h' : other.Summarizes bars)
    (hasset : span.asset = other.asset) : span = other := by
  obtain ⟨asset, rows, first, last⟩ := span
  obtain ⟨asset', rows', first', last'⟩ := other
  obtain rfl : asset = asset' := hasset
  have hrows := h.rows.trans h'.rows.symm
  have hfirst := h.first.symm.trans h'.first
  have hlast := h.last.symm.trans h'.last
  simp only [Option.some_inj] at hrows hfirst hlast
  rw [hrows, hfirst, hlast]

theorem Summarizes.exists_mem (h : span.Summarizes bars) :
    ∃ bar ∈ bars, bar.asset = span.asset := by
  obtain ⟨bar, hbar, -⟩ := List.mem_map.1 (List.mem_of_head? h.first)
  exact ⟨bar, (List.mem_filter.1 hbar).1, of_decide_eq_true (List.mem_filter.1 hbar).2⟩

theorem Summarizes.rows_ne_zero (h : span.Summarizes bars) : span.rows ≠ 0 := by
  rw [h.rows]
  intro hzero
  have hfirst := h.first
  rw [List.length_eq_zero_iff.1 hzero] at hfirst
  cases hfirst

theorem summarizes_cons_of_ne (hne : bar.asset ≠ span.asset) :
    span.Summarizes (bar :: bars) ↔ span.Summarizes bars := by
  have hfilter : ((bar :: bars).filter fun bar ↦ bar.asset = span.asset) =
      bars.filter fun bar ↦ bar.asset = span.asset :=
    List.filter_cons_of_neg (by simpa using hne)
  constructor
  · rintro ⟨hrows, hfirst, hlast⟩
    rw [hfilter] at hrows hfirst hlast
    exact ⟨hrows, hfirst, hlast⟩
  · rintro ⟨hrows, hfirst, hlast⟩
    exact ⟨by rwa [hfilter], by rwa [hfilter], by rwa [hfilter]⟩

theorem summarizes_ofBar (hnone : ∀ other ∈ bars, other.asset ≠ bar.asset) :
    (ofBar bar).Summarizes (bar :: bars) := by
  have hfilter : ((bar :: bars).filter fun other ↦ other.asset = (ofBar bar).asset) = [bar] := by
    rw [List.filter_cons_of_pos (by simp [ofBar])]
    refine congrArg _ (List.filter_eq_nil_iff.2 fun other hother ↦ ?_)
    rw [decide_eq_true_eq]
    exact hnone other hother
  constructor
  · rw [hfilter]
    rfl
  · rw [hfilter]
    rfl
  · rw [hfilter]
    rfl

/-- An asset with bars has a summary. -/
theorem exists_summarizes (h : bar ∈ bars) :
    ∃ span : Span, span.asset = bar.asset ∧ span.Summarizes bars := by
  let own := bars.filter fun other ↦ other.asset = bar.asset
  have hne : own.map Bar.day ≠ [] :=
    List.ne_nil_of_mem (List.mem_map_of_mem (List.mem_filter.2 ⟨h, decide_eq_true rfl⟩))
  exact ⟨⟨bar.asset, own.length, (own.map Bar.day).head hne, (own.map Bar.day).getLast hne⟩, rfl,
    rfl, List.head?_eq_some_head hne, List.getLast?_eq_some_getLast hne⟩

/-- A bar that stands before the others of its asset gives the span its first day. -/
theorem Summarizes.add (h : span.Summarizes bars) (hasset : bar.asset = span.asset)
    (hbar : ∀ other ∈ bars, bar.rowLe other = true) : (span.add bar).Summarizes (bar :: bars) := by
  have hfilter : ((bar :: bars).filter fun other ↦ other.asset = span.asset) =
      bar :: bars.filter fun other ↦ other.asset = span.asset :=
    List.filter_cons_of_pos (by simpa using hasset)
  have htext : ∀ day, day ∈ (bars.filter fun other ↦ other.asset = span.asset).map Bar.day →
      Day.textLe bar.day day = true := by
    intro day hday
    obtain ⟨other, hother, rfl⟩ := List.mem_map.1 hday
    obtain ⟨hmem, hsame⟩ := List.mem_filter.1 hother
    exact Bar.textLe_of_rowLe (hbar other hmem) (hasset.trans (of_decide_eq_true hsame).symm)
  have hfirst := htext _ (List.mem_of_head? h.first)
  have hlast := htext _ (List.mem_of_getLast? h.last)
  constructor
  · show span.rows + 1 = ((bar :: bars).filter fun other ↦ other.asset = span.asset).length
    rw [hfilter, List.length_cons, h.rows]
  · show (((bar :: bars).filter fun other ↦ other.asset = span.asset).map Bar.day).head? =
      some (Day.textMin bar.day span.firstDay)
    rw [hfilter, Day.textMin, if_pos hfirst]
    rfl
  · show (((bar :: bars).filter fun other ↦ other.asset = span.asset).map Bar.day).getLast? =
      some (Day.textMax bar.day span.lastDay)
    rw [hfilter, Day.textMax, if_pos hlast, List.map_cons, List.getLast?_cons, h.last]
    rfl

theorem ofBars_cons (bar : Bar) (bars : List Bar) : ofBars (bar :: bars) = push bar (ofBars bars) :=
  rfl

/-- One more bar, before all others, makes a summary of its asset and leaves all other spans. -/
theorem exists_push_eq (hspans : spans.Pairwise fun a b ↦ a.asset < b.asset)
    (hmem : ∀ span, span ∈ spans ↔ span.Summarizes bars)
    (hbar : ∀ other ∈ bars, bar.rowLe other = true) :
    ∃ new others, push bar spans = new :: others ∧ new.asset = bar.asset ∧
      new.Summarizes (bar :: bars) ∧ others.Pairwise (fun a b ↦ a.asset < b.asset) ∧
      (∀ span ∈ others, bar.asset < span.asset) ∧
      ∀ span, span.asset ≠ bar.asset → (span ∈ others ↔ span ∈ spans) := by
  have hle : ∀ span ∈ spans, bar.asset ≤ span.asset := by
    intro span hspan
    obtain ⟨other, hother, hasset⟩ := ((hmem span).1 hspan).exists_mem
    exact hasset ▸ Bar.asset_le_of_rowLe (hbar other hother)
  have hlt : ∀ span ∈ spans, span.asset ≠ bar.asset → bar.asset < span.asset := by
    intro span hspan hne
    exact lt_of_le_of_ne (hle span hspan) hne.symm
  by_cases hnone : ∀ span ∈ spans, span.asset ≠ bar.asset
  · -- The asset is new, and a span of its own is put before all others.
    refine ⟨ofBar bar, spans, ?_, rfl, summarizes_ofBar fun other hother hasset ↦ ?_, hspans,
      fun span hspan ↦ hlt span hspan (hnone span hspan), fun _ _ ↦ Iff.rfl⟩
    · cases spans with
      | nil => rfl
      | cons first rest => rw [push, if_neg (hnone first List.mem_cons_self)]
    · obtain ⟨span, hsame, hspan⟩ := exists_summarizes hother
      exact hnone span ((hmem span).2 hspan) (hsame.trans hasset)
  · push Not at hnone
    obtain ⟨span, hspan, hasset⟩ := hnone
    cases spans with
    | nil => cases hspan
    | cons first rest =>
      obtain ⟨hfirst, hrest⟩ := List.pairwise_cons.1 hspans
      -- The span of the asset is the first one, since no span has a lesser asset.
      obtain rfl : span = first := by
        rcases List.mem_cons.1 hspan with heq | hlater
        · exact heq
        · have hbefore := (hle first List.mem_cons_self).trans_lt (hfirst span hlater)
          exact absurd hasset hbefore.ne'
      refine ⟨span.add bar, rest, by rw [push, if_pos hasset], hasset,
        ((hmem span).1 hspan).add hasset.symm hbar, hrest, fun other hother ↦ ?_,
        fun other hother ↦ ?_⟩
      · exact hasset ▸ hfirst other hother
      · rw [List.mem_cons]
        refine (or_iff_right ?_).symm
        rintro rfl
        exact hother hasset

/-- The spans of ordered bars: ascending by asset, and all the summaries there are. -/
theorem ofBars_spec (h : bars.Pairwise fun a b ↦ a.rowLe b = true) :
    (ofBars bars).Pairwise (fun a b ↦ a.asset < b.asset) ∧
      ∀ span, span ∈ ofBars bars ↔ span.Summarizes bars := by
  induction bars with
  | nil =>
    refine ⟨List.Pairwise.nil, fun span ↦ iff_of_false List.not_mem_nil fun h ↦ ?_⟩
    cases h.first
  | cons bar rest ih =>
    obtain ⟨hbar, hrest⟩ := List.pairwise_cons.1 h
    obtain ⟨hascending, hmem⟩ := ih hrest
    obtain ⟨new, others, hpush, hasset, hnew, hothers, hgreater, hsame⟩ :=
      exists_push_eq hascending hmem hbar
    rw [ofBars_cons, hpush]
    refine ⟨List.pairwise_cons.2 ⟨fun span hspan ↦ hasset ▸ hgreater span hspan, hothers⟩,
      fun span ↦ ?_⟩
    rw [List.mem_cons]
    -- Of the asset of the bar there is the new span only; of all others nothing has changed.
    by_cases hspan : span.asset = bar.asset
    · constructor
      · rintro (rfl | hlater)
        · exact hnew
        · exact absurd hspan (hgreater span hlater).ne'
      · exact fun hsummary ↦ Or.inl (hsummary.eq hnew (hspan.trans hasset.symm))
    · rw [summarizes_cons_of_ne (Ne.symm hspan), ← hmem, hsame span hspan]
      exact or_iff_right fun heq ↦ hspan (heq ▸ hasset)

/-- The number of rows of the spans of lesser assets. -/
def rowsBefore (spans : List Span) (asset : AssetId) : Nat :=
  ((spans.filter fun span ↦ span.asset < asset).map rows).sum

theorem rowsBefore_cons (span : Span) (spans : List Span) (asset : AssetId) :
    rowsBefore (span :: spans) asset =
      (if span.asset < asset then span.rows else 0) + rowsBefore spans asset := by
  rw [rowsBefore, List.filter_cons]
  split
  · rename_i h
    rw [if_pos (of_decide_eq_true h), List.map_cons, List.sum_cons]
    rfl
  · rename_i h
    rw [if_neg (by simpa using h), Nat.zero_add]
    rfl

theorem rowsBefore_push (bar : Bar) (spans : List Span) (asset : AssetId) :
    rowsBefore (push bar spans) asset =
      rowsBefore spans asset + if bar.asset < asset then 1 else 0 := by
  cases spans with
  | nil =>
    rw [push, rowsBefore_cons]
    exact Nat.add_comm _ _
  | cons first rest =>
    rw [push]
    split
    · rename_i hasset
      rw [rowsBefore_cons, rowsBefore_cons]
      show (if first.asset < asset then first.rows + 1 else 0) + _ = _
      rw [hasset]
      split <;> omega
    · rw [rowsBefore_cons]
      exact Nat.add_comm _ _

theorem rowsBefore_ofBars (bars : List Bar) (asset : AssetId) :
    rowsBefore (ofBars bars) asset = bars.countP fun bar ↦ bar.asset < asset := by
  induction bars with
  | nil => rfl
  | cons bar rest ih =>
    rw [ofBars_cons, rowsBefore_push, ih, List.countP_cons]
    simp only [decide_eq_true_eq]

end Span

namespace Store

variable {store : Store}

theorem spans_ascending (store : Store) :
    store.spans.Pairwise fun a b ↦ a.asset < b.asset :=
  (Span.ofBars_spec store.ordered).1

/-- **The spans are the summaries of the rows of the assets.** -/
theorem mem_spans_iff {span : Span} : span ∈ store.spans ↔
    span.rows = (store.assetRows span.asset).length ∧
      ((store.assetRows span.asset).map Bar.day).head? = some span.firstDay ∧
      ((store.assetRows span.asset).map Bar.day).getLast? = some span.lastDay := by
  refine ((Span.ofBars_spec store.ordered).2 span).trans ?_
  constructor
  · rintro ⟨hrows, hfirst, hlast⟩
    exact ⟨hrows, hfirst, hlast⟩
  · rintro ⟨hrows, hfirst, hlast⟩
    exact ⟨hrows, hfirst, hlast⟩

theorem rowsBefore_spans (store : Store) (asset : AssetId) :
    Span.rowsBefore store.spans asset = store.rowStart asset :=
  Span.rowsBefore_ofBars store.rows asset

theorem rows_ne_zero_of_mem_spans {span : Span} (h : span ∈ store.spans) : span.rows ≠ 0 :=
  (((Span.ofBars_spec store.ordered).2 span).1 h).rows_ne_zero

end Store

end DailyBars
