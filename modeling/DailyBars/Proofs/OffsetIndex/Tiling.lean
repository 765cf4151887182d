import DailyBars.Proofs.OffsetIndex.Build
import Mathlib

/-!
# The row intervals of an index

The rows of the assets in an index follow one another without gap or overlap, in the order of the
assets, from row zero to the last row of the store (`OffsetIndex.tiles_of_build`). So every row
number belongs to one asset. As the offsets of a single asset, this comes from the running total of
the build, and **it needs nothing of the days**: it holds of any store that has an index at all.
-/

namespace DailyBars

namespace Span

/-- One more bar is one more row of some span. -/
theorem sum_rows_push (bar : Bar) (spans : List Span) :
    ((push bar spans).map rows).sum = (spans.map rows).sum + 1 := by
  cases spans with
  | nil => rfl
  | cons first rest =>
    rw [push]
    split
    · rw [List.map_cons, List.map_cons, List.sum_cons, List.sum_cons]
      show first.rows + 1 + _ = _
      omega
    · rw [List.map_cons, List.sum_cons]
      exact Nat.add_comm _ _

theorem sum_rows_ofBars (bars : List Bar) : ((ofBars bars).map rows).sum = bars.length := by
  induction bars with
  | nil => rfl
  | cons bar rest ih => rw [ofBars_cons, sum_rows_push, ih, List.length_cons]

end Span

namespace OffsetIndex

variable {sessions : DayList} {name : String} {index next : OffsetIndex} {asset : AssetId}

/-- The row intervals of assets follow one another in the order of the list, from a row number up
to another. -/
def Tiles (index : OffsetIndex) : Nat → List AssetId → Nat → Prop
  | start, [], stop => start = stop
  | start, asset :: rest, stop =>
    ∃ offsets, index.get? asset = some offsets ∧ offsets.firstRow = start ∧
      offsets.firstRow ≤ offsets.lastRow ∧ index.Tiles (offsets.lastRow + 1) rest stop

/-- Spans of new assets are counted and entered once each. -/
theorem foldlM_add_counts {spans : List Span} (hspans : spans.Pairwise fun a b ↦ a.asset < b.asset)
    (hrows : ∀ span ∈ spans, span.rows ≠ 0)
    (hnew : ∀ span ∈ spans, ∀ entry ∈ index.entries, entry.1 ≠ span.asset)
    (h : spans.foldlM (add sessions name) index = .ok next) :
    next.totalRows = index.totalRows + (spans.map Span.rows).sum ∧
      next.size = index.size + spans.length := by
  induction spans generalizing index with
  | nil =>
    cases h
    exact ⟨rfl, rfl⟩
  | cons first rest ih =>
    obtain ⟨hfirst, hrest⟩ := List.pairwise_cons.1 hspans
    rw [List.foldlM_cons] at h
    obtain ⟨index', hadd, h⟩ := Result.bind_eq_ok_iff.1 h
    obtain ⟨position, -, rfl⟩ := (add_eq_ok_iff (hrows first List.mem_cons_self)).1 hadd
    have hput : ∀ offsets, put index.entries first.asset offsets =
        (first.asset, offsets) :: index.entries := fun offsets ↦
      congrArg _ (List.filter_eq_self.2 fun entry hentry ↦
        decide_eq_true (hnew first List.mem_cons_self entry hentry))
    rw [hput] at h
    have hlater : ∀ span ∈ rest, ∀ entry ∈
        (first.asset, first.offsets index.totalRows position) :: index.entries,
        entry.1 ≠ span.asset := by
      intro span hspan
      refine List.forall_mem_cons.2 ⟨fun heq ↦ ?_, hnew span (List.mem_cons_of_mem _ hspan)⟩
      exact (hfirst span hspan).ne heq
    obtain ⟨htotal, hsize⟩ :=
      ih hrest (fun span hspan ↦ hrows span (List.mem_cons_of_mem _ hspan)) hlater h
    rw [htotal, hsize, List.map_cons, List.sum_cons, List.length_cons]
    simp only [size, List.length_cons]
    omega

/-- **Each span is laid where the one before it ends.** -/
theorem foldlM_add_tiles {spans : List Span} (hspans : spans.Pairwise fun a b ↦ a.asset < b.asset)
    (hrows : ∀ span ∈ spans, span.rows ≠ 0)
    (h : spans.foldlM (add sessions name) index = .ok next) :
    next.Tiles index.totalRows (spans.map Span.asset) next.totalRows := by
  induction spans generalizing index with
  | nil =>
    cases h
    rfl
  | cons first rest ih =>
    obtain ⟨hfirst, hrest⟩ := List.pairwise_cons.1 hspans
    have hlater := fun span hspan ↦ hrows span (List.mem_cons_of_mem first hspan)
    have hpos := hrows first List.mem_cons_self
    rw [List.foldlM_cons] at h
    obtain ⟨index', hadd, h⟩ := Result.bind_eq_ok_iff.1 h
    obtain ⟨position, -, rfl⟩ := (add_eq_ok_iff hpos).1 hadd
    -- The later spans are of other assets, so they leave the offsets of the first as they are.
    have hget : next.get? first.asset = some (first.offsets index.totalRows position) := by
      rw [(foldlM_add_spec hrest hlater h).1 first.asset fun span hspan ↦ (hfirst span hspan).ne',
        get?_put, if_pos rfl]
    have hend : (first.offsets index.totalRows position).lastRow + 1 =
        index.totalRows + first.rows := by
      show index.totalRows + first.rows - 1 + 1 = _
      omega
    refine ⟨_, hget, rfl, ?_, ?_⟩
    · show index.totalRows ≤ index.totalRows + first.rows - 1
      omega
    · rw [hend]
      exact ih hrest hlater h

variable {store : Store}

/-- **The row intervals of an index tile the rows of its store**, in the order of the assets. -/
theorem tiles_of_build (h : build store.spans sessions name = .ok index) :
    index.Tiles 0 (store.spans.map Span.asset) index.totalRows :=
  foldlM_add_tiles store.spans_ascending (fun _ ↦ Store.rows_ne_zero_of_mem_spans) h

theorem totalRows_of_build (h : build store.spans sessions name = .ok index) :
    index.totalRows = store.rowCount := by
  have hcounts := foldlM_add_counts store.spans_ascending
    (fun _ ↦ Store.rows_ne_zero_of_mem_spans) (fun _ _ _ hentry ↦ absurd hentry List.not_mem_nil) h
  rw [hcounts.1, Store.spans, Span.sum_rows_ofBars]
  exact Nat.zero_add _

theorem size_of_build (h : build store.spans sessions name = .ok index) :
    index.size = store.spans.length := by
  have hcounts := foldlM_add_counts store.spans_ascending
    (fun _ ↦ Store.rows_ne_zero_of_mem_spans) (fun _ _ _ hentry ↦ absurd hentry List.not_mem_nil) h
  rw [hcounts.2]
  exact Nat.zero_add _

/-- The assets of the spans are those with rows. -/
theorem mem_map_spans_asset_iff :
    asset ∈ store.spans.map Span.asset ↔ ∃ bar ∈ store.rows, bar.asset = asset := by
  constructor
  · intro h
    obtain ⟨span, hspan, rfl⟩ := List.mem_map.1 h
    obtain ⟨-, hfirst, -⟩ := Store.mem_spans_iff.1 hspan
    obtain ⟨bar, hbar, -⟩ := List.mem_map.1 (List.mem_of_head? hfirst)
    exact ⟨bar, Store.mem_assetRows.1 hbar⟩
  · rintro ⟨bar, hbar, rfl⟩
    obtain ⟨span, hspan, hasset⟩ := exists_span_of_rows (Store.mem_assetRows.2 ⟨hbar, rfl⟩)
    exact hasset ▸ List.mem_map_of_mem hspan

/-- **An index contains exactly the assets with rows.** -/
theorem contains_iff_of_build (h : build store.spans sessions name = .ok index) :
    index.contains asset = true ↔ ∃ bar ∈ store.rows, bar.asset = asset := by
  rw [contains, Option.isSome_iff_ne_none, ne_eq, get?_eq_none_iff h]
  constructor
  · intro hne
    obtain ⟨bar, hbar⟩ := List.exists_mem_of_ne_nil _ hne
    exact ⟨bar, Store.mem_assetRows.1 hbar⟩
  · rintro ⟨bar, hbar⟩
    exact List.ne_nil_of_mem (Store.mem_assetRows.2 hbar)

end OffsetIndex

end DailyBars
