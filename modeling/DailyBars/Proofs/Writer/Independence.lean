import DailyBars.Proofs.Store.Assets
import DailyBars.Proofs.Writer.Dispositions
import Mathlib

/-!
# Tables of different assets

A write looks at the bounds of its own asset and adds rows of its own asset. So what becomes of a
table, and what it makes of the rows of its asset, **can be told from these rows and the table
alone** (`Writer.writeAlone`), and other assets keep their rows
(`Writer.assetRows_writeSource_of_ne`).

Hence in a batch of different assets no table notices the others, nor where the batch is cut into
several (`Writer.writeBatches_of_alone`). This is said of batches that do not raise: one that raises
ends at a table, and which tables come before it is a matter of their order.
-/

namespace DailyBars

/-- Bars are refused by an archive that may not be written, or if a price is not a number. -/
theorem Archive.append?_eq_none_iff {archive : Archive} {bars : List Bar} :
    archive.append? bars = none ↔ archive.isReadOnly = true ∨ ∃ bar ∈ bars, bar.hasNaN = true := by
  have hstore : archive.store.append? bars = none ↔ _ := Store.append?_eq_none_iff
  rw [append?, ← hstore]
  split <;> simp_all

namespace Writer

variable {calendar : Calendar} {behavior : Behavior} {known : Option (List AssetId)}
  {archive other : Archive}

/-! ### Single tables -/

/-- **What becomes of bars depends on the rows of their asset only**, and so does what these are
afterwards. -/
theorem writeBars_congr {asset : AssetId} (hreadOnly : other.isReadOnly = archive.isReadOnly)
    (hrows : other.store.assetRows asset = archive.store.assetRows asset) (bars : List Bar) :
    let written := writeBars calendar behavior asset bars other
    let expected := writeBars calendar behavior asset bars archive
    written.1 = expected.1 ∧
      written.2.store.assetRows asset = expected.2.store.assetRows asset := by
  have hbounds : other.store.assetBounds? asset = archive.store.assetBounds? asset := by
    rw [Store.assetBounds?, Store.assetBounds?, hrows]
  unfold writeBars
  rw [hbounds]
  cases planBars calendar behavior (archive.store.assetBounds? asset) asset bars with
  | error error => exact ⟨rfl, hrows⟩
  | ok plan =>
    dsimp only
    split
    · exact ⟨rfl, hrows⟩
    cases hnext : archive.append? plan.accepted with
    | none =>
      rw [Archive.append?_eq_none_iff, ← hreadOnly, ← Archive.append?_eq_none_iff] at hnext
      rw [hnext]
      exact ⟨rfl, hrows⟩
    | some next =>
      obtain ⟨hwritable, store, hstore, rfl⟩ := Archive.append?_eq_some_iff.1 hnext
      have hnumbers := (Store.append?_eq_some_iff.1 hstore).1
      have hlater : other.store.append? plan.accepted = some _ :=
        Store.append?_eq_some_iff.2 ⟨hnumbers, rfl⟩
      rw [Archive.append?_eq_some_iff.2 ⟨hreadOnly.trans hwritable, _, hlater, rfl⟩]
      exact ⟨rfl, Store.assetRows_append?_congr hlater hstore hrows⟩

theorem writeSource_congr {source : Source} (hreadOnly : other.isReadOnly = archive.isReadOnly)
    (hrows : other.store.assetRows source.1 = archive.store.assetRows source.1) :
    let written := writeSource calendar behavior known source other
    let expected := writeSource calendar behavior known source archive
    written.1 = expected.1 ∧
      written.2.store.assetRows source.1 = expected.2.store.assetRows source.1 := by
  intro written expected
  subst written expected
  cases hbars : barsOf? known source with
  | none =>
    obtain ⟨result, hresult, -⟩ := exists_writeSource_of_none hbars
    rw [hresult, hresult]
    exact ⟨rfl, hrows⟩
  | some bars =>
    rw [writeSource_of_some hbars, writeSource_of_some hbars]
    exact writeBars_congr hreadOnly hrows bars

/-- **A table does not touch the rows of other assets.** -/
theorem assetRows_writeSource_of_ne {source : Source} {asset : AssetId} (hasset : asset ≠ source.1)
    (archive : Archive) :
    (writeSource calendar behavior known source archive).2.store.assetRows asset =
      archive.store.assetRows asset :=
  writeSource_induction
    (motive := fun next ↦ next.store.assetRows asset = archive.store.assetRows asset) rfl
    fun bars _ ↦ assetRows_writeBars_of_ne hasset bars archive

/-- What becomes of a table in a store that has only the given rows, and which rows its asset has
then. -/
def writeAlone (calendar : Calendar) (behavior : Behavior) (known : Option (List AssetId))
    (rows : List Bar) (source : Source) : Except StoreError AssetOutcome × List Bar :=
  let (result, next) := writeSource calendar behavior known source ⟨.ofBars rows, .empty, false⟩
  (result, next.store.assetRows source.1)

/-- **What becomes of a table can be told from the rows of its asset.** -/
theorem writeAlone_assetRows (calendar : Calendar) (behavior : Behavior)
    (known : Option (List AssetId)) (source : Source) (hwritable : archive.isReadOnly = false) :
    writeAlone calendar behavior known (archive.store.assetRows source.1) source =
      ((writeSource calendar behavior known source archive).1,
        (writeSource calendar behavior known source archive).2.store.assetRows source.1) := by
  let alone : Archive := ⟨.ofBars (archive.store.assetRows source.1), .empty, false⟩
  have hreadOnly : alone.isReadOnly = archive.isReadOnly := hwritable.symm
  obtain ⟨hresult, hrows⟩ :=
    writeSource_congr hreadOnly (archive.store.assetRows_ofBars_assetRows source.1)
  exact Prod.ext hresult hrows

/-- A table that is written alone has an outcome, unless the disposition raises or a day that is
stored of its asset lies outside of the years 0 to 9999, where the program may stop. -/
theorem exists_writeAlone_eq (calendar : Calendar) (known : Option (List AssetId))
    (hbehavior : behavior ≠ .raise) (hwritable : archive.isReadOnly = false) (source : Source) :
    let rows := archive.store.assetRows source.1
    (∃ outcome, (writeAlone calendar behavior known rows source).1 = .ok outcome) ∨
      writeAlone calendar behavior known rows source = (.error .stopped, rows) ∧
        ∃ bar ∈ rows, ¬bar.day.IsUnsigned := by
  dsimp only
  rw [writeAlone_assetRows calendar behavior known source hwritable]
  rcases settles_or_stops calendar known source hwritable with
    ⟨written, hwritten⟩ | ⟨hstops, hday⟩
  · rw [hwritten, Behavior.enforce_of_ne hbehavior]
    exact Or.inl ⟨written.1, rfl⟩
  · rw [hstops]
    exact Or.inr ⟨rfl, hday⟩

/-! ### Batches -/

/-- **In a batch of different assets each table is written as if it were alone.** -/
theorem writeFrom_of_alone {outcomeOf : Source → AssetOutcome} {rowsOf : Source → List Bar}
    {sources : List Source} (hdistinct : (sources.map Prod.fst).Nodup)
    (hwritable : archive.isReadOnly = false)
    (halone : ∀ source ∈ sources,
      writeAlone calendar behavior known (archive.store.assetRows source.1) source =
        (.ok (outcomeOf source), rowsOf source))
    (position : Nat) (summary : WriteSummary) :
    let batch := writeFrom calendar behavior known sources position summary archive
    batch.result = .ok ((sources.map outcomeOf).foldl WriteSummary.record summary) ∧
      ∀ source ∈ sources, batch.archive.store.assetRows source.1 = rowsOf source := by
  induction sources generalizing archive position summary with
  | nil => exact ⟨rfl, List.forall_mem_nil _⟩
  | cons source rest ih =>
    rw [List.map_cons, List.nodup_cons] at hdistinct
    obtain ⟨hfirst, hdistinct⟩ := hdistinct
    obtain ⟨hown, halone⟩ := List.forall_mem_cons.1 halone
    have hne : ∀ later ∈ rest, later.1 ≠ source.1 := fun later hlater heq ↦
      hfirst (heq ▸ List.mem_map_of_mem hlater)
    rw [writeAlone_assetRows calendar behavior known source hwritable] at hown
    obtain ⟨hresult, hrows⟩ := Prod.mk.inj hown
    have hkept : ∀ later ∈ rest,
        (writeSource calendar behavior known source archive).2.store.assetRows later.1 =
          archive.store.assetRows later.1 := fun later hlater ↦
      assetRows_writeSource_of_ne (hne later hlater) archive
    have hextends := extends_writeSource calendar behavior known source archive
    rw [writeFrom_cons]
    rcases hwritten : writeSource calendar behavior known source archive with ⟨result, next⟩
    rw [hwritten] at hresult hrows hkept hextends
    obtain rfl : result = .ok (outcomeOf source) := hresult
    -- The rest of the batch finds the rows of its assets as they were.
    obtain ⟨hrest, hlater⟩ := ih hdistinct (hextends.isReadOnly_eq.trans hwritable)
      (fun later hmem ↦ by rw [hkept later hmem]; exact halone later hmem)
      (position + 1) (summary.record (outcomeOf source))
    refine ⟨hrest, List.forall_mem_cons.2 ⟨?_, hlater⟩⟩
    refine Eq.trans (assetRows_writeFrom_of_ne (fun later hmem heq ↦ ?_) next _ _) hrows
    exact hne later hmem heq.symm

/-- Batches that are written one after the other: their results, and the archive in the end. -/
def writeBatches (calendar : Calendar) (behavior : Behavior) (known : Option (List AssetId)) :
    List (List Source) → Archive → List (Except StoreError WriteSummary) × Archive
  | [], archive => ([], archive)
  | sources :: rest, archive =>
    let batch := writeTables calendar behavior known sources archive
    let (results, last) := writeBatches calendar behavior known rest batch.archive
    (batch.result :: results, last)

theorem assetRows_writeBatches_of_ne {batches : List (List Source)} {asset : AssetId}
    (hasset : ∀ source ∈ batches.flatten, asset ≠ source.1) (archive : Archive) :
    (writeBatches calendar behavior known batches archive).2.store.assetRows asset =
      archive.store.assetRows asset := by
  induction batches generalizing archive with
  | nil => rfl
  | cons sources rest ih =>
    rw [List.flatten_cons, List.forall_mem_append] at hasset
    exact (ih hasset.2 _).trans (assetRows_writeFrom_of_ne hasset.1 archive 0 .empty)

/-- **Batches of different assets are written as if each table were alone**, however they are
cut. -/
theorem writeBatches_of_alone {outcomeOf : Source → AssetOutcome} {rowsOf : Source → List Bar}
    {batches : List (List Source)} (hdistinct : (batches.flatten.map Prod.fst).Nodup)
    (hwritable : archive.isReadOnly = false)
    (halone : ∀ source ∈ batches.flatten,
      writeAlone calendar behavior known (archive.store.assetRows source.1) source =
        (.ok (outcomeOf source), rowsOf source)) :
    let written := writeBatches calendar behavior known batches archive
    written.1 = batches.map (fun sources ↦
        .ok ((sources.map outcomeOf).foldl WriteSummary.record .empty)) ∧
      ∀ source ∈ batches.flatten, written.2.store.assetRows source.1 = rowsOf source := by
  induction batches generalizing archive with
  | nil => exact ⟨rfl, List.forall_mem_nil _⟩
  | cons sources rest ih =>
    rw [List.flatten_cons, List.map_append, List.nodup_append'] at hdistinct
    obtain ⟨hown, hrest, hdisjoint⟩ := hdistinct
    have hne : ∀ source ∈ sources, ∀ later ∈ rest.flatten, source.1 ≠ later.1 :=
      fun source hsource later hlater heq ↦
        hdisjoint (List.mem_map_of_mem hsource) (heq ▸ List.mem_map_of_mem hlater)
    rw [List.flatten_cons, List.forall_mem_append] at halone
    obtain ⟨hfirst, halone⟩ := halone
    obtain ⟨hresult, hrows⟩ := writeFrom_of_alone hown hwritable hfirst 0 .empty
    have hextends := extends_writeFrom calendar behavior known sources 0 .empty archive
    obtain ⟨hresults, hlater⟩ := ih hrest (hextends.isReadOnly_eq.trans hwritable)
      fun later hmem ↦ by
        rw [assetRows_writeFrom_of_ne fun source hsource heq ↦
          hne source hsource later hmem heq.symm]
        exact halone later hmem
    refine ⟨congrArg₂ List.cons hresult hresults,
      List.forall_mem_append.2 ⟨fun source hsource ↦ ?_, hlater⟩⟩
    exact (assetRows_writeBatches_of_ne (hne source hsource) _).trans (hrows source hsource)

end Writer

end DailyBars
