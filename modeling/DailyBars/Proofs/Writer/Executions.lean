import DailyBars.Proofs.Store.Rows
import DailyBars.Proofs.Writer.Plan
import Mathlib

/-!
# Executions of a write

All that is ever stored is stored by `Writer.writeBars`. One execution fails, has nothing to store
or stores what its plan accepts (`Writer.writeBars_cases`); only the last changes the archive, and
it drops the cache. A batch is a list of executions, one for each table that is known and can be
read, up to the first failure; what holds before a batch and is kept by each execution holds after
it (`Writer.writeTables_induction`).

**The executions of a batch are data** (`Writer.executions`): the archives before and after each of
them, in order. An execution that stores at least one row drops the cache once, and nothing else
does, so these executions are what a cache counts (`Writer.generation_writeTables`).
-/

namespace DailyBars

namespace Archive

variable {archive next : Archive} {bars : List Bar}

theorem append?_eq_some_iff :
    archive.append? bars = some next ↔ archive.isReadOnly = false ∧
      ∃ store, archive.store.append? bars = some store ∧
        next = { archive with store := store, cache := archive.cache.invalidate } := by
  rw [append?]
  cases hreadOnly : archive.isReadOnly with
  | true => simp
  | false => simp [eq_comm]

/-- **Bars can be added** to an archive that may be written, if all their prices are numbers. -/
theorem exists_append?_eq (hwritable : archive.isReadOnly = false)
    (hnumbers : ∀ bar ∈ bars, bar.hasNaN = false) : ∃ next, archive.append? bars = some next := by
  obtain ⟨store, hstore⟩ := archive.store.exists_append?_eq hnumbers
  exact ⟨_, append?_eq_some_iff.2 ⟨hwritable, store, hstore, rfl⟩⟩

/-- Nothing is lost from one archive to another, and either may be written if the other may. -/
structure Extends (archive next : Archive) : Prop where
  isReadOnly_eq : next.isReadOnly = archive.isReadOnly
  rows : archive.store.rows.Sublist next.store.rows

theorem Extends.refl (archive : Archive) : archive.Extends archive :=
  ⟨rfl, List.Sublist.refl _⟩

theorem Extends.trans {later : Archive} (h : archive.Extends next) (h' : next.Extends later) :
    archive.Extends later :=
  ⟨h'.isReadOnly_eq.trans h.isReadOnly_eq, h.rows.trans h'.rows⟩

theorem extends_of_append? (h : archive.append? bars = some next) : archive.Extends next := by
  obtain ⟨-, store, hstore, rfl⟩ := append?_eq_some_iff.1 h
  exact ⟨rfl, Store.rows_sublist_of_append? hstore⟩

end Archive

namespace Writer

variable {calendar : Calendar} {behavior : Behavior} {known : Option (List AssetId)}

/-! ### Single executions -/

theorem writeBars_of_error {asset : AssetId} {bars : List Bar} {archive : Archive}
    {error : StoreError}
    (hplan : planBars calendar behavior (archive.store.assetBounds? asset) asset bars =
      .error error) :
    writeBars calendar behavior asset bars archive = (.error error, archive) := by
  rw [writeBars, hplan]

theorem writeBars_of_nothing {asset : AssetId} {bars : List Bar} {archive : Archive}
    {dropped : List DroppedSegment}
    (hplan : planBars calendar behavior (archive.store.assetBounds? asset) asset bars =
      .ok ⟨[], dropped⟩) :
    writeBars calendar behavior asset bars archive = (.ok (.written asset 0 dropped), archive) := by
  rw [writeBars, hplan]
  rfl

theorem writeBars_of_append? {asset : AssetId} {bars : List Bar} {archive next : Archive}
    {plan : Plan}
    (hplan : planBars calendar behavior (archive.store.assetBounds? asset) asset bars = .ok plan)
    (hne : plan.accepted ≠ []) (hnext : archive.append? plan.accepted = some next) :
    writeBars calendar behavior asset bars archive =
      (.ok (.written asset plan.accepted.length plan.dropped), next) := by
  rw [writeBars, hplan]
  dsimp only
  rw [if_neg (by simpa using hne), hnext]

/-- **An execution stores what its plan accepts, all of it**, if these are numbers; and it drops the
cache once if this is any. -/
theorem exists_writeBars_eq {asset : AssetId} {bars : List Bar} {archive : Archive} {plan : Plan}
    (hwritable : archive.isReadOnly = false)
    (hplan : planBars calendar behavior (archive.store.assetBounds? asset) asset bars = .ok plan)
    (hnumbers : ∀ bar ∈ plan.accepted, bar.hasNaN = false) :
    ∃ next, writeBars calendar behavior asset bars archive =
        (.ok (.written asset plan.accepted.length plan.dropped), next) ∧
      archive.store.append? plan.accepted = some next.store ∧
      next.cache = if plan.accepted = [] then archive.cache else archive.cache.invalidate := by
  by_cases hempty : plan.accepted = []
  · obtain ⟨accepted, dropped⟩ := plan
    obtain rfl : accepted = [] := hempty
    exact ⟨archive, writeBars_of_nothing hplan, archive.store.append?_nil, rfl⟩
  · obtain ⟨next, hnext⟩ := Archive.exists_append?_eq hwritable hnumbers
    obtain ⟨-, store, hstore, rfl⟩ := Archive.append?_eq_some_iff.1 hnext
    exact ⟨_, writeBars_of_append? hplan hempty hnext, hstore, (if_neg hempty).symm⟩

/-- **An execution fails, has nothing to store, or stores what the plan accepts.** -/
theorem writeBars_cases (calendar : Calendar) (behavior : Behavior) (asset : AssetId)
    (bars : List Bar) (archive : Archive) :
    (∃ error, writeBars calendar behavior asset bars archive = (.error error, archive)) ∨
      (∃ dropped, planBars calendar behavior (archive.store.assetBounds? asset) asset bars =
          .ok ⟨[], dropped⟩ ∧
        writeBars calendar behavior asset bars archive =
          (.ok (.written asset 0 dropped), archive)) ∨
      ∃ plan next, planBars calendar behavior (archive.store.assetBounds? asset) asset bars =
          .ok plan ∧
        plan.accepted ≠ [] ∧ archive.append? plan.accepted = some next ∧
        writeBars calendar behavior asset bars archive =
          (.ok (.written asset plan.accepted.length plan.dropped), next) := by
  cases hplan : planBars calendar behavior (archive.store.assetBounds? asset) asset bars with
  | error error =>
    refine Or.inl ⟨error, ?_⟩
    rw [writeBars, hplan]
  | ok plan =>
    obtain ⟨accepted, dropped⟩ := plan
    by_cases hempty : accepted = []
    · subst hempty
      exact Or.inr (Or.inl ⟨dropped, rfl, writeBars_of_nothing hplan⟩)
    cases hnext : archive.append? accepted with
    | none =>
      refine Or.inl ⟨.database, ?_⟩
      rw [writeBars, hplan]
      dsimp only
      rw [if_neg (by simpa using hempty), hnext]
    | some next =>
      exact Or.inr (Or.inr ⟨_, next, rfl, hempty, hnext, writeBars_of_append? hplan hempty hnext⟩)

/-- An execution that succeeds reports its plan, and what this accepts is stored. -/
theorem exists_plan_of_ok {asset : AssetId} {bars : List Bar} {archive : Archive}
    {outcome : AssetOutcome}
    (h : (writeBars calendar behavior asset bars archive).1 = .ok outcome) :
    ∃ plan, planBars calendar behavior (archive.store.assetBounds? asset) asset bars = .ok plan ∧
      outcome = .written asset plan.accepted.length plan.dropped ∧
      archive.store.append? plan.accepted =
        some (writeBars calendar behavior asset bars archive).2.store := by
  rcases writeBars_cases calendar behavior asset bars archive with
    ⟨error, hwritten⟩ | ⟨dropped, hplan, hwritten⟩ | ⟨plan, next, hplan, -, hnext, hwritten⟩
  · rw [hwritten] at h
    cases h
  · rw [hwritten] at h ⊢
    exact ⟨_, hplan, (Except.ok.inj h).symm, archive.store.append?_nil⟩
  · rw [hwritten] at h ⊢
    obtain ⟨-, store, hstore, rfl⟩ := Archive.append?_eq_some_iff.1 hnext
    exact ⟨plan, hplan, (Except.ok.inj h).symm, hstore⟩

/-- **An execution changes nothing, or stores what a plan accepts.** -/
theorem writeBars_archive (calendar : Calendar) (behavior : Behavior) (asset : AssetId)
    (bars : List Bar) (archive : Archive) :
    (writeBars calendar behavior asset bars archive).2 = archive ∨
      ∃ accepted, accepted ≠ [] ∧
        Accepts calendar asset bars (archive.store.assetBounds? asset) accepted ∧
        archive.append? accepted = some (writeBars calendar behavior asset bars archive).2 := by
  rcases writeBars_cases calendar behavior asset bars archive with
    ⟨error, hwritten⟩ | ⟨dropped, -, hwritten⟩ | ⟨plan, next, hplan, hne, hnext, hwritten⟩
  · exact Or.inl (by rw [hwritten])
  · exact Or.inl (by rw [hwritten])
  · rw [hwritten]
    exact Or.inr ⟨plan.accepted, hne, accepts_of_planBars hplan, hnext⟩

theorem writeBars_store (calendar : Calendar) (behavior : Behavior) (asset : AssetId)
    (bars : List Bar) (archive : Archive) :
    (writeBars calendar behavior asset bars archive).2 = archive ∨
      ∃ accepted store, accepted ≠ [] ∧
        Accepts calendar asset bars (archive.store.assetBounds? asset) accepted ∧
        archive.store.append? accepted = some store ∧
        (writeBars calendar behavior asset bars archive).2 =
          { archive with store := store, cache := archive.cache.invalidate } := by
  refine (writeBars_archive calendar behavior asset bars archive).imp_right ?_
  rintro ⟨accepted, hne, haccepts, hnext⟩
  obtain ⟨-, store, hstore, hnext⟩ := Archive.append?_eq_some_iff.1 hnext
  exact ⟨accepted, store, hne, haccepts, hstore, hnext⟩

/-- **No execution loses a row.** -/
theorem extends_writeBars (calendar : Calendar) (behavior : Behavior) (asset : AssetId)
    (bars : List Bar) (archive : Archive) :
    archive.Extends (writeBars calendar behavior asset bars archive).2 := by
  rcases writeBars_archive calendar behavior asset bars archive with hsame | hstored
  · rw [hsame]
    exact .refl archive
  · obtain ⟨accepted, -, -, hnext⟩ := hstored
    exact Archive.extends_of_append? hnext

/-- **An execution does not touch the rows of other assets.** -/
theorem assetRows_writeBars_of_ne {asset other : AssetId} (hother : other ≠ asset)
    (bars : List Bar) (archive : Archive) :
    (writeBars calendar behavior asset bars archive).2.store.assetRows other =
      archive.store.assetRows other := by
  rcases writeBars_store calendar behavior asset bars archive with hsame | hstored
  · rw [hsame]
  · obtain ⟨accepted, store, -, haccepts, hstore, hnext⟩ := hstored
    rw [hnext]
    exact Store.assetRows_of_append?_of_ne hstore fun bar hbar heq ↦
      hother (heq.symm.trans (haccepts.mem hbar).2)

/-- **What holds of the stored days and of those that are written holds of the days stored
afterwards**: nothing else gets into a store. -/
theorem days_writeBars {p : Day → Prop} {asset : AssetId} {bars : List Bar} {archive : Archive}
    (h : ∀ bar ∈ archive.store.rows, p bar.day) (hbars : ∀ bar ∈ bars, p bar.day) :
    ∀ bar ∈ (writeBars calendar behavior asset bars archive).2.store.rows, p bar.day := by
  rcases writeBars_store calendar behavior asset bars archive with hsame | hstored
  · rwa [hsame]
  · obtain ⟨accepted, store, -, haccepts, hstore, hnext⟩ := hstored
    intro bar hbar
    rw [hnext, (Store.rows_perm_of_append? hstore).mem_iff, List.mem_append] at hbar
    rcases hbar with hold | hnew
    · exact h bar hold
    · obtain ⟨given, hgiven, rfl⟩ := List.mem_map.1 hnew
      exact hbars given (haccepts.mem hgiven).1

/-- An execution stored at least one row. -/
def Stores (execution : Archive × Archive) : Prop :=
  execution.1.store.rowCount < execution.2.store.rowCount

instance (execution : Archive × Archive) : Decidable (Stores execution) :=
  inferInstanceAs (Decidable (_ < _))

/-- **An execution drops the cache exactly if it stores a row**, and else leaves the archive as it
is. -/
theorem writeBars_stores (calendar : Calendar) (behavior : Behavior) (asset : AssetId)
    (bars : List Bar) (archive : Archive) :
    let next := (writeBars calendar behavior asset bars archive).2
    if Stores (archive, next) then next.cache = archive.cache.invalidate else next = archive := by
  intro next
  rcases writeBars_store calendar behavior asset bars archive with hsame | hstored
  · rw [if_neg]
    · exact hsame
    · show ¬archive.store.rowCount < next.store.rowCount
      rw [show next = archive from hsame]
      exact Nat.lt_irrefl _
  · obtain ⟨accepted, store, hne, -, hstore, hnext⟩ := hstored
    rw [if_pos]
    · rw [show next = _ from hnext]
    · show archive.store.rows.length < next.store.rows.length
      rw [show next = _ from hnext, (Store.rows_perm_of_append? hstore).length_eq,
        List.length_append, List.length_map]
      exact Nat.lt_add_of_pos_right (List.length_pos_iff.2 hne)

/-! ### Batches -/

/-- The bars that are written for a table: none if its asset is not known or it cannot be read. -/
def barsOf? (known : Option (List AssetId)) (source : Source) : Option (List Bar) :=
  if isKnown known source.1 then
    match source.2 with
    | .error _ => none
    | .ok table => (table.bars source.1).toOption
  else none

/-- What is written for a table are its bars. -/
theorem bars_of_barsOf? {asset : AssetId} {table : Table} {bars : List Bar}
    (h : barsOf? known (asset, .ok table) = some bars) : table.bars asset = .ok bars := by
  rw [barsOf?] at h
  split at h
  · dsimp only at h
    cases hfound : table.bars asset with
    | error error =>
      rw [hfound] at h
      cases h
    | ok found =>
      rw [hfound] at h
      cases h
      rfl
  · cases h

/-- What a batch does with one of its tables. -/
def writeSource (calendar : Calendar) (behavior : Behavior) (known : Option (List AssetId))
    (source : Source) (archive : Archive) : Except StoreError AssetOutcome × Archive :=
  if isKnown known source.1 then writeTable calendar behavior source archive
  else (.ok (.skipped source.1), archive)

theorem writeFrom_cons (source : Source) (rest : List Source) (position : Nat)
    (summary : WriteSummary) (archive : Archive) :
    writeFrom calendar behavior known (source :: rest) position summary archive =
      match writeSource calendar behavior known source archive with
      | (.error error, next) => ⟨.error error, [.started source.1 position], next⟩
      | (.ok outcome, next) =>
        (writeFrom calendar behavior known rest (position + 1) (summary.record outcome) next).after
          [.started source.1 position, .completed position outcome] := by
  rw [writeFrom, ← writeSource]
  rcases writeSource calendar behavior known source archive with ⟨error | outcome, next⟩ <;> rfl

theorem writeSource_of_some {source : Source} {bars : List Bar} {archive : Archive}
    (h : barsOf? known source = some bars) :
    writeSource calendar behavior known source archive =
      writeBars calendar behavior source.1 bars archive := by
  obtain ⟨asset, table⟩ := source
  rw [barsOf?] at h
  split at h
  · rename_i hknown
    rw [writeSource, if_pos hknown]
    unfold writeTable
    cases table with
    | error error => cases h
    | ok table =>
      dsimp only at h ⊢
      cases hbars : table.bars asset with
      | error error => rw [hbars] at h; cases h
      | ok found =>
        rw [hbars] at h
        cases h
        rfl
  · cases h

/-- A table without bars has the same result on every archive, and stores nothing. -/
theorem exists_writeSource_of_none {source : Source} (h : barsOf? known source = none) :
    ∃ result, (∀ archive, writeSource calendar behavior known source archive = (result, archive)) ∧
      ∀ outcome, result = .ok outcome → outcome.rowsWritten = 0 := by
  obtain ⟨asset, table⟩ := source
  have hdrop : ∀ {rows : Nat} {error : StoreError} (outcome : AssetOutcome),
      (drop behavior .table rows error).map (AssetOutcome.written asset 0) = .ok outcome →
      outcome.rowsWritten = 0 := by
    intro rows error outcome h
    obtain ⟨dropped, -, rfl⟩ := Result.map_eq_ok_iff.1 h
    rfl
  rw [barsOf?] at h
  unfold writeSource writeTable
  split at h
  · rename_i hknown
    simp only [if_pos hknown]
    cases table with
    | error error => exact ⟨_, fun _ ↦ rfl, hdrop⟩
    | ok table =>
      dsimp only at h ⊢
      cases hbars : table.bars asset with
      | error error => exact ⟨_, fun _ ↦ rfl, hdrop⟩
      | ok found =>
        rw [hbars] at h
        cases h
  · rename_i hknown
    simp only [if_neg hknown]
    exact ⟨_, fun _ ↦ rfl, fun outcome h ↦ by cases h; rfl⟩

theorem writeSource_of_none {source : Source} {archive : Archive}
    (h : barsOf? known source = none) :
    (writeSource calendar behavior known source archive).2 = archive := by
  obtain ⟨result, hresult, -⟩ := exists_writeSource_of_none h
  rw [hresult]

/-- **What an execution keeps, a table keeps**: one without bars is no execution. -/
theorem writeSource_induction {motive : Archive → Prop} {source : Source} {archive : Archive}
    (h : motive archive) (hstep : ∀ bars, barsOf? known source = some bars →
      motive (writeBars calendar behavior source.1 bars archive).2) :
    motive (writeSource calendar behavior known source archive).2 := by
  cases hbars : barsOf? known source with
  | none => rwa [writeSource_of_none hbars]
  | some bars =>
    rw [writeSource_of_some hbars]
    exact hstep bars hbars

theorem extends_writeSource (calendar : Calendar) (behavior : Behavior)
    (known : Option (List AssetId)) (source : Source) (archive : Archive) :
    archive.Extends (writeSource calendar behavior known source archive).2 :=
  writeSource_induction (.refl archive) fun bars _ ↦
    extends_writeBars calendar behavior source.1 bars archive

theorem days_writeSource {p : Day → Prop} {source : Source} {archive : Archive}
    (h : ∀ bar ∈ archive.store.rows, p bar.day)
    (hsource : ∀ bars, barsOf? known source = some bars → ∀ bar ∈ bars, p bar.day) :
    ∀ bar ∈ (writeSource calendar behavior known source archive).2.store.rows, p bar.day :=
  writeSource_induction (motive := fun archive ↦ ∀ bar ∈ archive.store.rows, p bar.day) h
    fun bars hbars ↦ days_writeBars h (hsource bars hbars)

theorem writeFrom_induction {motive : Archive → Prop} {sources : List Source}
    (hstep : ∀ source ∈ sources, ∀ bars, barsOf? known source = some bars →
      ∀ archive, motive archive → motive (writeBars calendar behavior source.1 bars archive).2)
    {archive : Archive} (h : motive archive) (position : Nat) (summary : WriteSummary) :
    motive (writeFrom calendar behavior known sources position summary archive).archive := by
  induction sources generalizing archive position summary with
  | nil => exact h
  | cons source rest ih =>
    have hsource : motive (writeSource calendar behavior known source archive).2 :=
      writeSource_induction h fun bars hbars ↦
        hstep source List.mem_cons_self bars hbars archive h
    rw [writeFrom_cons]
    split
    · rename_i hresult
      rwa [hresult] at hsource
    · rename_i hresult
      rw [hresult] at hsource
      exact ih (fun other hother ↦ hstep other (List.mem_cons_of_mem _ hother)) hsource _ _

/-- **What each execution keeps, a batch keeps**, also one that fails on the way. -/
theorem writeTables_induction {motive : Archive → Prop} {sources : List Source}
    (hstep : ∀ source ∈ sources, ∀ bars, barsOf? known source = some bars →
      ∀ archive, motive archive → motive (writeBars calendar behavior source.1 bars archive).2)
    {archive : Archive} (h : motive archive) :
    motive (writeTables calendar behavior known sources archive).archive :=
  writeFrom_induction hstep h 0 .empty

theorem extends_writeFrom (calendar : Calendar) (behavior : Behavior)
    (known : Option (List AssetId)) (sources : List Source) (position : Nat)
    (summary : WriteSummary) (archive : Archive) :
    archive.Extends
      (writeFrom calendar behavior known sources position summary archive).archive :=
  writeFrom_induction (motive := archive.Extends)
    (fun source _ bars _ _ harchive ↦
      harchive.trans (extends_writeBars calendar behavior source.1 bars _))
    (.refl archive) position summary

/-- **A batch does not touch the rows of assets that it has no table of.** -/
theorem assetRows_writeFrom_of_ne {sources : List Source} {asset : AssetId}
    (hasset : ∀ source ∈ sources, asset ≠ source.1) (archive : Archive) (position : Nat)
    (summary : WriteSummary) :
    (writeFrom calendar behavior known sources position summary archive).archive.store.assetRows
      asset = archive.store.assetRows asset :=
  writeFrom_induction
    (motive := fun next ↦ next.store.assetRows asset = archive.store.assetRows asset)
    (fun source hsource bars _ next h ↦
      (assetRows_writeBars_of_ne (hasset source hsource) bars next).trans h)
    rfl position summary

/-- The archives before and after each execution of a batch. -/
def executions (calendar : Calendar) (behavior : Behavior) (known : Option (List AssetId)) :
    List Source → Archive → List (Archive × Archive)
  | [], _ => []
  | source :: rest, archive =>
    let (result, next) := writeSource calendar behavior known source archive
    let first := (barsOf? known source).toList.map fun _ ↦ (archive, next)
    match result with
    | .error _ => first
    | .ok _ => first ++ executions calendar behavior known rest next

/-- The number of executions that stored at least one row. -/
def storing (executions : List (Archive × Archive)) : Nat :=
  executions.countP fun execution ↦ Stores execution

theorem storing_append (xs ys : List (Archive × Archive)) :
    storing (xs ++ ys) = storing xs + storing ys :=
  List.countP_append

/-- A single execution counts one generation if it stores a row. -/
theorem generation_writeBars (calendar : Calendar) (behavior : Behavior) (asset : AssetId)
    (bars : List Bar) (archive : Archive) :
    let next := (writeBars calendar behavior asset bars archive).2
    next.cache.generation = archive.cache.generation + storing [(archive, next)] := by
  intro next
  have h := writeBars_stores calendar behavior asset bars archive
  change if Stores (archive, next) then _ else next = archive at h
  split at h
  · rename_i hstores
    rw [h, storing, List.countP_cons_of_pos (by simpa using hstores)]
    rfl
  · rename_i hnot
    rw [storing, List.countP_cons_of_neg (by simpa using hnot), h]
    rfl

theorem generation_writeFrom (sources : List Source) (archive : Archive) (position : Nat)
    (summary : WriteSummary) :
    (writeFrom calendar behavior known sources position summary archive).archive.cache.generation =
      archive.cache.generation + storing (executions calendar behavior known sources archive) := by
  induction sources generalizing archive position summary with
  | nil => rfl
  | cons source rest ih =>
    have hsource : (writeSource calendar behavior known source archive).2.cache.generation =
        archive.cache.generation + storing ((barsOf? known source).toList.map fun _ ↦
          (archive, (writeSource calendar behavior known source archive).2)) := by
      cases hbars : barsOf? known source with
      | none => rw [writeSource_of_none hbars]; rfl
      | some bars =>
        rw [writeSource_of_some hbars]
        exact generation_writeBars calendar behavior source.1 bars archive
    rw [writeFrom_cons, executions]
    split
    · rename_i hresult
      rw [hresult] at hsource ⊢
      exact hsource
    · rename_i hresult
      rw [hresult] at hsource ⊢
      show (writeFrom calendar behavior known rest _ _ _).archive.cache.generation = _
      rw [ih, hsource, storing_append, Nat.add_assoc]

/-- **A batch counts one generation for each execution that stores a row.** -/
theorem generation_writeTables (sources : List Source) (archive : Archive) :
    (writeTables calendar behavior known sources archive).archive.cache.generation =
      archive.cache.generation + storing (executions calendar behavior known sources archive) :=
  generation_writeFrom sources archive 0 .empty

end Writer

end DailyBars
