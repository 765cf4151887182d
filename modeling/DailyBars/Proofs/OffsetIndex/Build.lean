import DailyBars.OffsetIndex
import DailyBars.Proofs.Day.Ascending
import DailyBars.Proofs.Result
import DailyBars.Proofs.Store.Spans
import Mathlib

/-!
# What an index says of a store

The index is built from spans alone, with a running total as the only trace of their order. Over
ascending spans the total before a span is the number of rows of lesser assets
(`OffsetIndex.foldlM_add_spec`), and so **the running total is the place of the block in the
store**: the offsets of an asset locate its rows (`OffsetIndex.locates_of_get?`), for any mix of
assets.

Whether there is an index at all depends on the first days only (`OffsetIndex.exists_build`).
-/

namespace DailyBars

/-! ### Words -/

namespace Word

variable {a b first last n : Nat}

theorem add?_eq_some (h : a + b < 2 ^ 64) : add? a b = some (a + b) :=
  if_pos h

theorem sub?_eq_some (h : b ≤ a) : sub? a b = some (a - b) :=
  if_pos h

theorem add?_eq_some_iff : add? a b = some n ↔ a + b = n ∧ n < 2 ^ 64 := by
  rw [add?, Option.ite_none_right_eq_some, Option.some_inj]
  exact ⟨fun ⟨hlt, heq⟩ ↦ ⟨heq, heq ▸ hlt⟩, fun ⟨heq, hlt⟩ ↦ ⟨heq ▸ hlt, heq⟩⟩

theorem sub?_eq_some_iff : sub? a b = some n ↔ b ≤ a ∧ a - b = n := by
  rw [sub?, Option.ite_none_right_eq_some, Option.some_inj]

/-- **Rows are counted exactly if they are in order and not too many.** -/
theorem countRows?_eq_some_iff :
    countRows? first last = some n ↔ first ≤ last ∧ last - first + 1 = n ∧ n < 2 ^ 64 := by
  rw [countRows?, Option.bind_eq_bind, Option.bind_eq_some_iff]
  constructor
  · rintro ⟨steps, hsteps, hcount⟩
    obtain ⟨horder, rfl⟩ := sub?_eq_some_iff.1 hsteps
    exact ⟨horder, add?_eq_some_iff.1 hcount⟩
  · rintro ⟨horder, hcount⟩
    exact ⟨_, sub?_eq_some horder, add?_eq_some_iff.2 hcount⟩

end Word

/-- The number of rows of an asset, whether or not it is a word. -/
def AssetOffsets.extent (offsets : AssetOffsets) : Nat :=
  offsets.lastRow - offsets.firstRow + 1

theorem AssetOffsets.rowCount?_eq_some_iff {offsets : AssetOffsets} {n : Nat} :
    offsets.rowCount? = some n ↔
      offsets.firstRow ≤ offsets.lastRow ∧ offsets.extent = n ∧ n < 2 ^ 64 :=
  Word.countRows?_eq_some_iff

/-- The number of rows of a slice, whether or not it is a word. -/
def RowSlice.extent (slice : RowSlice) : Nat :=
  slice.lastRow - slice.firstRow + 1

theorem RowSlice.rowCount?_eq_some_iff {slice : RowSlice} {n : Nat} :
    slice.rowCount? = some n ↔
      slice.firstRow ≤ slice.lastRow ∧ slice.extent = n ∧ n < 2 ^ 64 :=
  Word.countRows?_eq_some_iff

/-! ### Offsets -/

/-- The offsets of a span whose block starts at a row and whose first day is at a position. -/
def Span.offsets (span : Span) (firstRow position : Nat) : AssetOffsets where
  firstRow := firstRow
  lastRow := firstRow + span.rows - 1
  calendarOffset := position
  firstDay := span.firstDay
  lastDay := span.lastDay

namespace OffsetIndex

variable {sessions : DayList} {name : String} {index next : OffsetIndex} {asset : AssetId}

/-! ### Adding spans -/

theorem get?_put (entries : List (AssetId × AssetOffsets)) (asset other : AssetId)
    (offsets : AssetOffsets) (rows : Nat) :
    (⟨put entries asset offsets, rows⟩ : OffsetIndex).get? other =
      if asset = other then some offsets else (⟨entries, rows⟩ : OffsetIndex).get? other := by
  rw [get?, put, List.find?_cons]
  by_cases hsame : asset = other
  · simp [hsame]
  · rw [if_neg hsame, decide_eq_false hsame]
    dsimp only
    rw [List.find?_filter, get?]
    refine congrArg _ (congrArg (List.find? · entries) (funext fun entry ↦ ?_))
    by_cases hentry : entry.1 = other
    · simp [hentry, Ne.symm hsame]
    · simp [hentry]

theorem add_eq_ok_iff {span : Span} (hrows : span.rows ≠ 0) :
    add sessions name index span = .ok next ↔
      ∃ position, sessions.indexOf? span.firstDay = some position ∧
        next = ⟨put index.entries span.asset (span.offsets index.totalRows position),
          index.totalRows + span.rows⟩ := by
  rw [add, if_neg hrows]
  cases sessions.indexOf? span.firstDay with
  | none => simp
  | some position => simp [Span.offsets, eq_comm]

/-- **Ascending spans are laid one after the other**, from the rows that there are already. -/
theorem foldlM_add_spec {spans : List Span} (hspans : spans.Pairwise fun a b ↦ a.asset < b.asset)
    (hrows : ∀ span ∈ spans, span.rows ≠ 0)
    (h : spans.foldlM (add sessions name) index = .ok next) :
    (∀ asset, (∀ span ∈ spans, span.asset ≠ asset) → next.get? asset = index.get? asset) ∧
      ∀ span ∈ spans, ∃ position, sessions.indexOf? span.firstDay = some position ∧
        next.get? span.asset =
          some (span.offsets (index.totalRows + Span.rowsBefore spans span.asset) position) := by
  induction spans generalizing index with
  | nil =>
    cases h
    exact ⟨fun _ _ ↦ rfl, fun _ hspan ↦ absurd hspan List.not_mem_nil⟩
  | cons first rest ih =>
    obtain ⟨hfirst, hrest⟩ := List.pairwise_cons.1 hspans
    rw [List.foldlM_cons] at h
    obtain ⟨index', hadd, h⟩ := Result.bind_eq_ok_iff.1 h
    obtain ⟨position, hposition, rfl⟩ :=
      (add_eq_ok_iff (hrows first List.mem_cons_self)).1 hadd
    -- The later spans are laid from the total after `first` on, and none of them is of its asset.
    obtain ⟨hother, hlater⟩ :=
      ih hrest (fun span hspan ↦ hrows span (List.mem_cons_of_mem _ hspan)) h
    have hlt : ∀ span ∈ rest, ¬span.asset < first.asset := fun span hspan ↦
      (hfirst span hspan).not_gt
    refine ⟨fun asset hasset ↦ ?_, fun span hspan ↦ ?_⟩
    · rw [hother asset fun span hspan ↦ hasset span (List.mem_cons_of_mem _ hspan), get?_put,
        if_neg (hasset first List.mem_cons_self)]
      rfl
    rcases List.mem_cons.1 hspan with rfl | hspan
    · -- No span is of a lesser asset than the first, so its block starts at the total as it was.
      have hzero : Span.rowsBefore (span :: rest) span.asset = 0 := by
        have hnone : ((span :: rest).filter fun other ↦ other.asset < span.asset) = [] := by
          refine List.filter_eq_nil_iff.2 fun other hmem ↦ ?_
          rw [decide_eq_true_eq]
          rcases List.mem_cons.1 hmem with rfl | hmem
          · exact lt_irrefl _
          · exact hlt other hmem
        rw [Span.rowsBefore, hnone]
        rfl
      refine ⟨position, hposition, ?_⟩
      rw [hother span.asset fun other hmem heq ↦ hlt other hmem (heq ▸ hfirst other hmem), get?_put,
        if_pos rfl, hzero]
      rfl
    · -- Before a later span there are the rows of `first` too, which are in its total already.
      obtain ⟨position', hposition', hget⟩ := hlater span hspan
      refine ⟨position', hposition', ?_⟩
      rw [hget, Span.rowsBefore_cons, if_pos (hfirst span hspan), Nat.add_assoc]

/-- There is an index where the first day of every span is a session. -/
theorem exists_foldlM_add {spans : List Span} (hrows : ∀ span ∈ spans, span.rows ≠ 0)
    (hdays : ∀ span ∈ spans, span.firstDay ∈ sessions.toList) (index : OffsetIndex) :
    ∃ next, spans.foldlM (add sessions name) index = .ok next := by
  induction spans generalizing index with
  | nil => exact ⟨index, rfl⟩
  | cons first rest ih =>
    have hposition := DayList.indexOf?_of_mem (hdays first List.mem_cons_self)
    have hadd : add sessions name index first = .ok _ :=
      (add_eq_ok_iff (hrows first List.mem_cons_self)).2 ⟨_, hposition, rfl⟩
    obtain ⟨next, hnext⟩ := ih (fun span hspan ↦ hrows span (List.mem_cons_of_mem _ hspan))
      (fun span hspan ↦ hdays span (List.mem_cons_of_mem _ hspan)) _
    refine ⟨next, ?_⟩
    rw [List.foldlM_cons]
    exact Result.bind_eq_ok_iff.2 ⟨_, hadd, hnext⟩

/-- There is no index at the first span whose first day is no session. -/
theorem exists_of_foldlM_add_eq_error {spans : List Span} (hrows : ∀ span ∈ spans, span.rows ≠ 0)
    {error : StoreError} (h : spans.foldlM (add sessions name) index = .error error) :
    ∃ span ∈ spans, span.firstDay ∉ sessions.toList ∧
      error = .calendarLookup span.asset span.firstDay name := by
  induction spans generalizing index with
  | nil => cases h
  | cons first rest ih =>
    rw [List.foldlM_cons, add, if_neg (hrows first List.mem_cons_self)] at h
    cases hposition : sessions.indexOf? first.firstDay with
    | none =>
      rw [hposition] at h
      cases h
      exact ⟨first, List.mem_cons_self, DayList.indexOf?_eq_none_iff.1 hposition, rfl⟩
    | some position =>
      rw [hposition] at h
      obtain ⟨span, hspan, hday, herror⟩ :=
        ih (fun span hspan ↦ hrows span (List.mem_cons_of_mem _ hspan)) h
      exact ⟨span, List.mem_cons_of_mem _ hspan, hday, herror⟩

/-! ### The index of a store -/

/-- Offsets say where the rows of an asset lie in a store, and which session the first of them is
on. -/
structure Locates (store : Store) (sessions : DayList) (asset : AssetId)
    (offsets : AssetOffsets) : Prop where
  firstRow : offsets.firstRow = store.rowStart asset
  lastRow : offsets.lastRow + 1 = store.rowStart asset + (store.assetRows asset).length
  firstDay : ((store.assetRows asset).map Bar.day).head? = some offsets.firstDay
  lastDay : ((store.assetRows asset).map Bar.day).getLast? = some offsets.lastDay
  calendarOffset : sessions.toList[offsets.calendarOffset]? = some offsets.firstDay

theorem Locates.length_pos {store : Store} {offsets : AssetOffsets}
    (h : Locates store sessions asset offsets) : 0 < (store.assetRows asset).length := by
  have hmem := List.mem_of_head? h.firstDay
  rw [← List.length_map Bar.day]
  exact List.length_pos_of_mem hmem

/-- The distance from the first to the last row, without a subtraction that may be cut off. -/
theorem Locates.firstRow_add {store : Store} {offsets : AssetOffsets}
    (h : Locates store sessions asset offsets) :
    offsets.lastRow - offsets.firstRow + 1 = (store.assetRows asset).length := by
  have := h.length_pos
  rw [h.firstRow]
  have := h.lastRow
  omega

variable {store : Store}

theorem exists_span_of_rows {bar : Bar} (h : bar ∈ store.assetRows asset) :
    ∃ span ∈ store.spans, span.asset = asset := by
  obtain ⟨hmem, rfl⟩ := Store.mem_assetRows.1 h
  obtain ⟨span, hasset, hspan⟩ := Span.exists_summarizes hmem
  exact ⟨span, ((Span.ofBars_spec store.ordered).2 span).2 hspan, hasset⟩

/-- An asset is in the index exactly if it has rows. -/
theorem get?_eq_none_iff (h : build store.spans sessions name = .ok index) :
    index.get? asset = none ↔ store.assetRows asset = [] := by
  obtain ⟨hother, hget⟩ := foldlM_add_spec store.spans_ascending
    (fun _ ↦ Store.rows_ne_zero_of_mem_spans) h
  constructor
  · intro hnone
    by_contra hne
    obtain ⟨bar, hbar⟩ := List.exists_mem_of_ne_nil _ hne
    obtain ⟨span, hspan, rfl⟩ := exists_span_of_rows hbar
    obtain ⟨position, -, hsome⟩ := hget span hspan
    rw [hnone] at hsome
    cases hsome
  · intro hnil
    rw [hother asset fun span hspan hasset ↦ ?_]
    · rfl
    · have hfirst := (Store.mem_spans_iff.1 hspan).2.1
      rw [hasset, hnil] at hfirst
      cases hfirst

/-- **The offsets of an asset locate its rows.** -/
theorem locates_of_get? (h : build store.spans sessions name = .ok index) {offsets : AssetOffsets}
    (hoffsets : index.get? asset = some offsets) : Locates store sessions asset offsets := by
  have hne : store.assetRows asset ≠ [] := by
    rw [ne_eq, ← get?_eq_none_iff h, hoffsets]
    exact Option.some_ne_none offsets
  obtain ⟨bar, hbar⟩ := List.exists_mem_of_ne_nil _ hne
  obtain ⟨span, hspan, rfl⟩ := exists_span_of_rows hbar
  obtain ⟨position, hposition, hget⟩ := (foldlM_add_spec store.spans_ascending
    (fun _ ↦ Store.rows_ne_zero_of_mem_spans) h).2 span hspan
  obtain rfl := Option.some_inj.1 (hoffsets.symm.trans hget)
  obtain ⟨hrows, hfirst, hlast⟩ := Store.mem_spans_iff.1 hspan
  have hstart : empty.totalRows + Span.rowsBefore store.spans span.asset =
      store.rowStart span.asset := by
    rw [Store.rowsBefore_spans]
    exact Nat.zero_add _
  have hpos := Store.rows_ne_zero_of_mem_spans hspan
  constructor
  · exact hstart
  · show _ + Span.rowsBefore _ _ + span.rows - 1 + 1 = _
    rw [hstart, ← hrows]
    omega
  · exact hfirst
  · exact hlast
  · exact DayList.indexOf?_eq_some_iff.1 hposition

/-- **There is an index where the first day of every asset is a session.** -/
theorem exists_build (store : Store) (name : String)
    (hdays : ∀ bar ∈ store.rows, bar.day ∈ sessions.toList) :
    ∃ index, build store.spans sessions name = .ok index := by
  refine exists_foldlM_add (fun _ ↦ Store.rows_ne_zero_of_mem_spans) (fun span hspan ↦ ?_) empty
  obtain ⟨-, hfirst, -⟩ := Store.mem_spans_iff.1 hspan
  obtain ⟨bar, hbar, hday⟩ := List.mem_map.1 (List.mem_of_head? hfirst)
  exact hday ▸ hdays bar (Store.mem_assetRows.1 hbar).1

/-- **Where there is no index, the first day of some asset is no session**, and the failure names
both. -/
theorem exists_of_build_eq_error {error : StoreError}
    (h : build store.spans sessions name = .error error) :
    ∃ asset day, ((store.assetRows asset).map Bar.day).head? = some day ∧
      day ∉ sessions.toList ∧ error = .calendarLookup asset day name := by
  obtain ⟨span, hspan, hday, herror⟩ :=
    exists_of_foldlM_add_eq_error (fun _ ↦ Store.rows_ne_zero_of_mem_spans) h
  exact ⟨span.asset, span.firstDay, (Store.mem_spans_iff.1 hspan).2.1, hday, herror⟩

/-! ### Slices -/

theorem slice?_eq_some_iff {start stop : Nat} {slice : RowSlice} :
    index.slice? start stop asset = some slice ↔
      ∃ offsets, index.get? asset = some offsets ∧
        (start ≤ stop ∧ start ≤ offsets.calendarEnd ∧ offsets.calendarOffset ≤ stop) ∧
        slice = ⟨offsets.firstRow + (start - offsets.calendarOffset),
          offsets.firstRow +
            min (stop - offsets.calendarOffset) (offsets.lastRow - offsets.firstRow),
          offsets.calendarOffset - start⟩ := by
  rw [slice?]
  cases index.get? asset with
  | none => simp
  | some offsets =>
    by_cases hout : stop < start ∨ offsets.calendarEnd < start ∨ stop < offsets.calendarOffset
    · have hnot : ¬(start ≤ stop ∧ start ≤ offsets.calendarEnd ∧
          offsets.calendarOffset ≤ stop) := by omega
      simp [hout, hnot]
    · have hin : start ≤ stop ∧ start ≤ offsets.calendarEnd ∧ offsets.calendarOffset ≤ stop := by
        omega
      simp [hout, hin, eq_comm]

end OffsetIndex

end DailyBars
