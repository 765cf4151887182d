import DailyBars.Proofs.OffsetIndex.Build
import Mathlib

/-!
# Slices and the cells they stand for

A slice of an asset is found by a few sums and differences. It stands for a walk over the session
positions of the range asked for: each position that lies in the span of the asset has a place in
the range and a row in the store (`OffsetIndex.walk`), and **the cells of the slice are those of the
walk, in the same order** (`OffsetIndex.cells_of_slice?`).

Positions and row numbers are words of 64 bits. Two of the differences stop at zero on purpose; the
others are formed where they cannot fall below zero, and every sum is a word again
(`OffsetIndex.sliceInWords?_eq`). The count of the rows of a slice is not always a word: all the row
numbers that there are would be one row more than a word can count, and a slice of as many rows has
no count (`OffsetIndex.exists_slice_without_count`). No index that is put together from entries has
such a slice: the counts of all entries are added up first, and entries that have more rows together
than a word can count make no index (`OffsetIndex.exists_ofEntries?_iff`).
-/

namespace DailyBars

/-! ### Cells -/

/-- Cells of a slice, as many as given: places in the range with the rows that they are filled
from. -/
def RowSlice.cells (slice : RowSlice) (count : Nat) : List (Nat × Nat) :=
  (List.range count).map fun k ↦ (slice.outputOffset + k, slice.firstRow + k)

namespace AssetOffsets

variable {offsets : AssetOffsets} {start stop position : Nat}

/-- The session positions of a range that lie in the span of an asset. -/
def positions (offsets : AssetOffsets) (start stop : Nat) : List Nat :=
  (List.range' start (stop + 1 - start)).filter fun position ↦
    offsets.calendarOffset ≤ position && position ≤ offsets.calendarEnd

/-- The place and the row of each of these positions. -/
def walk (offsets : AssetOffsets) (start stop : Nat) : List (Nat × Nat) :=
  (offsets.positions start stop).map fun position ↦
    (position - start, offsets.firstRow + (position - offsets.calendarOffset))

theorem mem_positions : position ∈ offsets.positions start stop ↔
    (start ≤ position ∧ position ≤ stop) ∧
      offsets.calendarOffset ≤ position ∧ position ≤ offsets.calendarEnd := by
  rw [positions, List.mem_filter, List.mem_range'_1, Bool.and_eq_true, decide_eq_true_eq,
    decide_eq_true_eq]
  exact and_congr_left fun _ ↦ by omega

/-- The positions of a range that lie in a span are an interval. -/
theorem positions_eq_range' (offsets : AssetOffsets) (start stop : Nat) :
    offsets.positions start stop = List.range' (max start offsets.calendarOffset)
      (min stop offsets.calendarEnd + 1 - max start offsets.calendarOffset) := by
  have hascending : (offsets.positions start stop).Pairwise (· < ·) :=
    List.Pairwise.filter _ List.pairwise_lt_range'
  refine hascending.eq_of_mem_iff List.pairwise_lt_range' fun position ↦ ?_
  rw [mem_positions, List.mem_range'_1]
  omega

end AssetOffsets

namespace OffsetIndex

variable {index : OffsetIndex} {start stop : Nat} {asset : AssetId} {slice : RowSlice}

/-- The cells of an asset in a range, found by a walk over the sessions of the range. -/
def walk (index : OffsetIndex) (start stop : Nat) (asset : AssetId) : List (Nat × Nat) :=
  match index.get? asset with
  | some offsets => offsets.walk start stop
  | none => []

/-- **The cells of a slice are those of the walk.** -/
theorem cells_of_slice? (h : index.slice? start stop asset = some slice) :
    slice.firstRow ≤ slice.lastRow ∧ slice.cells slice.extent = index.walk start stop asset := by
  obtain ⟨offsets, hoffsets, ⟨horder, hend, hstart⟩, rfl⟩ := slice?_eq_some_iff.1 h
  rw [AssetOffsets.calendarEnd] at hend
  refine ⟨by dsimp only; omega, ?_⟩
  have hcount : RowSlice.extent ⟨offsets.firstRow + (start - offsets.calendarOffset),
      offsets.firstRow + min (stop - offsets.calendarOffset) (offsets.lastRow - offsets.firstRow),
      offsets.calendarOffset - start⟩ =
      min stop offsets.calendarEnd + 1 - max start offsets.calendarOffset := by
    rw [RowSlice.extent, AssetOffsets.calendarEnd]
    dsimp only
    omega
  rw [walk, hoffsets]
  dsimp only
  rw [AssetOffsets.walk, AssetOffsets.positions_eq_range', RowSlice.cells, hcount,
    List.range'_eq_map_range, List.map_map]
  refine List.map_congr_left fun k _ ↦ Prod.ext ?_ ?_
  · simp only [Function.comp_apply]
    omega
  · simp only [Function.comp_apply]
    omega

/-- A slice has as many rows as the walk has cells. -/
theorem extent_of_slice? (h : index.slice? start stop asset = some slice) :
    slice.extent = (index.walk start stop asset).length := by
  rw [← (cells_of_slice? h).2, RowSlice.cells, List.length_map, List.length_range]

/-- **There is no slice exactly where the walk finds nothing.** -/
theorem slice?_eq_none_iff : index.slice? start stop asset = none ↔
    index.walk start stop asset = [] := by
  constructor
  · intro hnone
    rw [walk]
    cases hoffsets : index.get? asset with
    | none => rfl
    | some offsets =>
      refine List.map_eq_nil_iff.2 (List.eq_nil_iff_forall_not_mem.2 fun position hposition ↦ ?_)
      obtain ⟨hrange, hspan⟩ := AssetOffsets.mem_positions.1 hposition
      have hsome := slice?_eq_some_iff.2 ⟨offsets, hoffsets,
        ⟨(by omega : start ≤ stop), (by omega : start ≤ _), (by omega : _ ≤ stop)⟩, rfl⟩
      rw [hnone] at hsome
      cases hsome
  · intro hwalk
    by_contra hne
    obtain ⟨slice, hslice⟩ := Option.ne_none_iff_exists'.1 hne
    obtain ⟨-, hcells⟩ := cells_of_slice? hslice
    rw [hwalk, RowSlice.cells, List.map_eq_nil_iff, List.range_eq_nil, RowSlice.extent] at hcells
    omega

end OffsetIndex

/-! ### Words -/

/-- The rows and the session positions of an asset are words, and there is a row. -/
structure AssetOffsets.InWords (offsets : AssetOffsets) : Prop where
  firstRow_le : offsets.firstRow ≤ offsets.lastRow
  lastRow_lt : offsets.lastRow < 2 ^ 64
  calendarEnd_lt : offsets.calendarOffset + (offsets.lastRow - offsets.firstRow) < 2 ^ 64

/-- The session position of the last row of an asset, unless a number on the way is no word. -/
def AssetOffsets.calendarEndInWords? (offsets : AssetOffsets) : Option Nat := do
  Word.add? offsets.calendarOffset (← Word.sub? offsets.lastRow offsets.firstRow)

theorem AssetOffsets.InWords.calendarEndInWords? {offsets : AssetOffsets} (h : offsets.InWords) :
    offsets.calendarEndInWords? = some offsets.calendarEnd := by
  rw [AssetOffsets.calendarEndInWords?, Word.sub?_eq_some h.firstRow_le]
  exact Word.add?_eq_some h.calendarEnd_lt

namespace OffsetIndex

variable {index : OffsetIndex} {start stop : Nat} {asset : AssetId}

/-- The slice of an asset as it is found step by step, none of them skipped; there is no answer at
all if a number on the way is no word. -/
def sliceInWords? (index : OffsetIndex) (start stop : Nat) (asset : AssetId) :
    Option (Option RowSlice) :=
  match index.get? asset with
  | none => some none
  | some offsets => do
    if stop < start then return none
    if (← offsets.calendarEndInWords?) < start then return none
    if stop < offsets.calendarOffset then return none
    let leading := start - offsets.calendarOffset
    let trailing := min (← Word.sub? stop offsets.calendarOffset)
      (← Word.sub? offsets.lastRow offsets.firstRow)
    return some {
      firstRow := ← Word.add? offsets.firstRow leading
      lastRow := ← Word.add? offsets.firstRow trailing
      outputOffset := offsets.calendarOffset - start }

/-- **No number on the way to a slice falls below zero or exceeds a word.** -/
theorem sliceInWords?_eq (hindex : ∀ offsets, index.get? asset = some offsets → offsets.InWords) :
    index.sliceInWords? start stop asset = some (index.slice? start stop asset) := by
  rw [sliceInWords?, slice?]
  cases hoffsets : index.get? asset with
  | none => rfl
  | some offsets =>
    have hwords := hindex offsets hoffsets
    have hlast := hwords.lastRow_lt
    have hfirst := hwords.firstRow_le
    have hsub := Word.sub?_eq_some hfirst
    simp only [hwords.calendarEndInWords?, hsub]
    by_cases horder : stop < start
    · simp [horder]
    by_cases hend : offsets.calendarEnd < start
    · simp [horder, hend]
    by_cases hbefore : stop < offsets.calendarOffset
    · simp [horder, hend, hbefore]
    have hleading : offsets.firstRow + (start - offsets.calendarOffset) < 2 ^ 64 := by
      rw [AssetOffsets.calendarEnd] at hend
      omega
    have htrailing : offsets.firstRow + min (stop - offsets.calendarOffset)
        (offsets.lastRow - offsets.firstRow) < 2 ^ 64 := by omega
    simp [horder, hend, hbefore, Word.sub?_eq_some (Nat.not_lt.1 hbefore),
      Word.add?_eq_some hleading, Word.add?_eq_some htrailing]

/-! ### Counts -/

section

variable {entries : List (AssetId × AssetOffsets)} {before total : Nat}

/-- **Counts are added up exactly if the rows are in order and the exact sum is a word**: no sum on
the way fails before the last one does. -/
theorem foldlM_rowCount?_eq_some_iff (hbefore : before < 2 ^ 64) :
    entries.foldlM (fun total entry ↦ do Word.add? total (← entry.2.rowCount?)) before =
        some total ↔
      (∀ entry ∈ entries, entry.2.firstRow ≤ entry.2.lastRow) ∧
        before + (entries.map (·.2.extent)).sum = total ∧ total < 2 ^ 64 := by
  induction entries generalizing before with
  | nil =>
    rw [List.foldlM_nil]
    constructor
    · intro h
      cases h
      exact ⟨List.forall_mem_nil _, rfl, hbefore⟩
    · rintro ⟨-, rfl, -⟩
      rfl
  | cons first rest ih =>
    rw [List.foldlM_cons, Option.bind_eq_bind, Option.bind_eq_some_iff, List.forall_mem_cons,
      List.map_cons, List.sum_cons, ← Nat.add_assoc]
    constructor
    · rintro ⟨next, hnext, hrest⟩
      obtain ⟨count, hcount, hadd⟩ := Option.bind_eq_some_iff.1 hnext
      obtain ⟨horder, rfl, -⟩ := AssetOffsets.rowCount?_eq_some_iff.1 hcount
      obtain ⟨rfl, hlt⟩ := Word.add?_eq_some_iff.1 hadd
      obtain ⟨hall, hsum, htotal⟩ := (ih hlt).1 hrest
      exact ⟨⟨horder, hall⟩, hsum, htotal⟩
    · rintro ⟨⟨horder, hall⟩, hsum, htotal⟩
      have hlt : before + first.2.extent < 2 ^ 64 := by omega
      have hcount := AssetOffsets.rowCount?_eq_some_iff.2 ⟨horder, rfl, by omega⟩
      exact ⟨_, Option.bind_eq_some_iff.2 ⟨_, hcount, Word.add?_eq_some hlt⟩,
        (ih hlt).2 ⟨hall, hsum, htotal⟩⟩

theorem sumRows?_eq_some_iff : sumRows? entries = some total ↔
    (∀ entry ∈ entries, entry.2.firstRow ≤ entry.2.lastRow) ∧
      (entries.map (·.2.extent)).sum = total ∧ total < 2 ^ 64 := by
  rw [sumRows?, foldlM_rowCount?_eq_some_iff (by decide), Nat.zero_add]

/-- **Entries make an index exactly if their rows are in order and can be counted together.** -/
theorem exists_ofEntries?_iff : (∃ index, ofEntries? entries = some index) ↔
    (∀ entry ∈ keepLast entries, entry.2.firstRow ≤ entry.2.lastRow) ∧
      ((keepLast entries).map (·.2.extent)).sum < 2 ^ 64 := by
  constructor
  · rintro ⟨index, h⟩
    obtain ⟨total, htotal, -⟩ := Option.bind_eq_some_iff.1 h
    obtain ⟨horder, rfl, hlt⟩ := sumRows?_eq_some_iff.1 htotal
    exact ⟨horder, hlt⟩
  · rintro ⟨horder, hlt⟩
    exact ⟨_, Option.bind_eq_some_iff.2 ⟨_, sumRows?_eq_some_iff.2 ⟨horder, rfl, hlt⟩, rfl⟩⟩

/-- **In an index that is put together from entries the rows of every slice are counted.** -/
theorem exists_rowCount?_of_ofEntries? (h : ofEntries? entries = some index) {slice : RowSlice}
    (hslice : index.slice? start stop asset = some slice) :
    ∃ n, slice.rowCount? = some n := by
  obtain ⟨total, hsum, heq⟩ := Option.bind_eq_some_iff.1 h
  cases heq
  obtain ⟨hrows, hsum, htotal⟩ := sumRows?_eq_some_iff.1 hsum
  have horder := (cells_of_slice? hslice).1
  obtain ⟨offsets, hoffsets, ⟨-, hend, -⟩, rfl⟩ := slice?_eq_some_iff.1 hslice
  obtain ⟨entry, hentry, rfl⟩ := Option.map_eq_some_iff.1 hoffsets
  -- The slice has no more rows than its asset, and that one no more than all together.
  have hmem : entry ∈ keepLast entries := List.mem_of_find?_eq_some hentry
  have hextent := List.le_sum_of_mem (List.mem_map_of_mem (f := (·.2.extent)) hmem)
  have hfirst := hrows entry hmem
  rw [AssetOffsets.extent] at hextent
  refine ⟨_, RowSlice.rowCount?_eq_some_iff.2 ⟨horder, rfl, ?_⟩⟩
  rw [RowSlice.extent]
  dsimp only
  omega

end

/-- **Slices are walks**: there is one answer for each asset, in the order of the assets, and each
is the slice with the cells of the walk, or none where the walk finds nothing. All of it is found
within words. The rows of a slice are counted exactly if their number is a word; in an index that
is put together from entries it always is, and entries make an index exactly if they do not have
more rows together than a word can count. -/
theorem slices_are_walks (index : OffsetIndex)
    (hindex : ∀ asset offsets, index.get? asset = some offsets → offsets.InWords)
    (start stop : Nat) (assets : List AssetId) :
    assets.mapM (index.sliceInWords? start stop) = some (index.slices start stop assets) ∧
    List.Forall₂ (fun asset answer ↦
      (answer = none ↔ index.walk start stop asset = []) ∧
      ∀ slice, answer = some slice →
        slice.firstRow ≤ slice.lastRow ∧
        slice.cells (index.walk start stop asset).length = index.walk start stop asset ∧
        (∀ n, slice.rowCount? = some n ↔ (index.walk start stop asset).length = n ∧ n < 2 ^ 64) ∧
        ((∃ entries, ofEntries? entries = some index) → ∃ n, slice.rowCount? = some n))
      assets (index.slices start stop assets) ∧
    ∀ entries, (∃ index, ofEntries? entries = some index) ↔
      (∀ entry ∈ keepLast entries, entry.2.firstRow ≤ entry.2.lastRow) ∧
        ((keepLast entries).map (·.2.extent)).sum < 2 ^ 64 := by
  refine ⟨?_, ?_, fun _ ↦ exists_ofEntries?_iff⟩
  · rw [Result.mapM_eq_some_iff, slices, List.map_map]
    exact List.map_congr_left fun asset _ ↦ sliceInWords?_eq (hindex asset)
  · rw [slices, List.forall₂_map_right_iff]
    refine List.forall₂_same.2 fun asset _ ↦ ⟨slice?_eq_none_iff, fun slice hslice ↦ ?_⟩
    obtain ⟨horder, hcells⟩ := cells_of_slice? hslice
    have hextent := extent_of_slice? hslice
    refine ⟨horder, by rw [← hextent, hcells], fun n ↦ ?_, fun ⟨entries, hentries⟩ ↦
      exists_rowCount?_of_ofEntries? hentries hslice⟩
    rw [RowSlice.rowCount?_eq_some_iff, and_iff_right horder, hextent]

namespace Sample

/-- Thirty rows of one asset, the first of them on session 10. -/
def lateEntries : List (AssetId × AssetOffsets) :=
  [(⟨1⟩, ⟨100, 129, 10, Day.epoch, Day.epoch⟩)]

/-- The index of these rows. -/
def lateAsset : OffsetIndex :=
  ⟨lateEntries, 30⟩

theorem inWords_lateAsset {asset : AssetId} {offsets : AssetOffsets}
    (h : lateAsset.get? asset = some offsets) : offsets.InWords := by
  obtain ⟨entry, hentry, rfl⟩ := Option.map_eq_some_iff.1 h
  obtain rfl := List.mem_singleton.1 (List.mem_of_find?_eq_some hentry)
  exact ⟨by decide, by decide, by decide⟩

/-- An asset with a row for every number that is a word. -/
def fullOffsets : AssetOffsets :=
  ⟨0, 18446744073709551615, 0, Day.epoch, Day.epoch⟩

/-- Two assets that have one row more than a word can count. -/
def fullEntries : List (AssetId × AssetOffsets) :=
  [(⟨1⟩, ⟨0, 18446744073709551614, 0, Day.epoch, Day.epoch⟩),
    (⟨2⟩, ⟨0, 0, 0, Day.epoch, Day.epoch⟩)]

end Sample

theorem slices_of_lateAsset_are_walks :
    (∀ asset offsets, Sample.lateAsset.get? asset = some offsets → offsets.InWords) ∧
      ofEntries? Sample.lateEntries = some Sample.lateAsset ∧
      Sample.lateAsset.slices 5 12 [⟨1⟩, ⟨2⟩] = [some ⟨100, 102, 5⟩, none] ∧
      Sample.lateAsset.walk 5 12 ⟨1⟩ = [(5, 100), (6, 101), (7, 102)] ∧
      RowSlice.rowCount? ⟨100, 102, 5⟩ = some 3 ∧
      Sample.lateAsset.walk 5 12 ⟨2⟩ = [] := by
  have hslices : Sample.lateAsset.slices 5 12 [⟨1⟩, ⟨2⟩] = [some ⟨100, 102, 5⟩, none] := by decide
  have hentries : ofEntries? Sample.lateEntries = some Sample.lateAsset := rfl
  have hlength : (Sample.lateAsset.walk 5 12 ⟨1⟩).length = 3 := by decide
  obtain ⟨-, hwalks, -⟩ :=
    slices_are_walks Sample.lateAsset (fun _ _ ↦ Sample.inWords_lateAsset) 5 12 [⟨1⟩, ⟨2⟩]
  rw [hslices] at hwalks
  obtain ⟨hfirst, hrest⟩ := List.forall₂_cons.1 hwalks
  obtain ⟨hsecond, -⟩ := List.forall₂_cons.1 hrest
  obtain ⟨-, hcells, hcount, -⟩ := hfirst.2 _ rfl
  rw [hlength] at hcells
  exact ⟨fun _ _ ↦ Sample.inWords_lateAsset, hentries, hslices, hcells.symm,
    (hcount 3).2 ⟨hlength, by decide⟩, hsecond.1.1 rfl⟩

/-- A slice of all rows that words can number is there and has cells, but it has no count; and there
is no index of entries that have as many rows together. -/
theorem exists_slice_without_count :
    (Sample.fullOffsets.InWords ∧
      let index : OffsetIndex := ⟨[(⟨1⟩, Sample.fullOffsets)], 0⟩
      index.slices 0 18446744073709551615 [⟨1⟩] = [some ⟨0, 18446744073709551615, 0⟩] ∧
      RowSlice.rowCount? ⟨0, 18446744073709551615, 0⟩ = none ∧
      index.walk 0 18446744073709551615 ⟨1⟩ ≠ [] ∧
      ofEntries? index.entries = none) ∧
    (∀ entry ∈ Sample.fullEntries, entry.2.InWords) ∧ ofEntries? Sample.fullEntries = none := by
  have hslice : slice? ⟨[(⟨1⟩, Sample.fullOffsets)], 0⟩ 0 18446744073709551615 ⟨1⟩ =
      some ⟨0, 18446744073709551615, 0⟩ := by
    decide +kernel
  refine ⟨⟨⟨by decide, by decide, by decide⟩, by rw [← hslice]; rfl, by decide, ?_,
    by decide +kernel⟩, ?_, by decide +kernel⟩
  · rw [Ne, ← slice?_eq_none_iff, hslice]
    exact Option.some_ne_none _
  · simp only [Sample.fullEntries, List.forall_mem_cons]
    exact ⟨⟨by decide, by decide, by decide⟩, ⟨by decide, by decide, by decide⟩,
      List.forall_mem_nil _⟩

end OffsetIndex

end DailyBars
