import DailyBars.Proofs.Table.Bars
import DailyBars.Proofs.Writer.Executions
import Mathlib

/-!
# What a disposition changes

A disposition has no part in what is valid. Each planning function comes to one plan, with segments
that it drops, and **the disposition settles only what becomes of a plan that drops some**
(`Behavior.settle`): under `raise` the first of them is the failure. Plans that are put together are
settled as their parts are, one after the other (`Behavior.settle_bind`), and so are the outcomes of
tables.

Hence a batch that raises is the one that does not, cut at the first table of which something is
dropped (`Writer.writeFrom_raise`). This needs nothing of the calendar and the days, and allows an
asset to come more than once.

Where stored days lie outside of the years 0 to 9999, the bounds of an asset may be in reverse, and
the program may stop at a table of it. It does so under all dispositions or none
(`Writer.settles_or_stops`).
-/

namespace DailyBars

namespace Behavior

variable {α β : Type} {behavior : Behavior}

/-- What a disposition makes of a result with dropped segments: under `raise` the first of them is
the failure. -/
def settle (behavior : Behavior) (dropped : List DroppedSegment) (a : α) : Except StoreError α :=
  match behavior, dropped with
  | .raise, segment :: _ => .error segment.reason
  | _, _ => .ok a

@[simp] theorem settle_nil (behavior : Behavior) (a : α) : behavior.settle [] a = .ok a := by
  cases behavior <;> rfl

theorem settle_of_ne (hbehavior : behavior ≠ .raise) (dropped : List DroppedSegment) (a : α) :
    behavior.settle dropped a = .ok a := by
  cases behavior with
  | raise => exact absurd rfl hbehavior
  | warn => rfl
  | ignore => rfl

theorem eq_of_settle_eq_ok {dropped : List DroppedSegment} {a b : α}
    (h : behavior.settle dropped a = .ok b) : b = a := by
  unfold settle at h
  split at h
  · cases h
  · exact (Except.ok.inj h).symm

/-- **Steps are settled one after the other**: the first segment that is dropped in any of them is
the failure. -/
theorem settle_bind {a : α} {f : α → Except StoreError β} {xs ys : List DroppedSegment} {b : β}
    (h : f a = behavior.settle ys b) :
    behavior.settle xs a >>= f = behavior.settle (xs ++ ys) b := by
  cases behavior with
  | raise =>
    cases xs with
    | nil => exact h
    | cons segment rest => rfl
  | warn => exact h
  | ignore => exact h

theorem settle_map (f : α → β) (dropped : List DroppedSegment) (a : α) :
    (behavior.settle dropped a).map f = behavior.settle dropped (f a) := by
  cases behavior with
  | raise => cases dropped <;> rfl
  | warn => rfl
  | ignore => rfl

/-- What a disposition makes of a write: under `raise` one that drops segments fails with the first
of them and changes nothing. -/
def enforce (behavior : Behavior) (archive : Archive) (written : AssetOutcome × Archive) :
    Except StoreError AssetOutcome × Archive :=
  match behavior.settle written.1.dropped written with
  | .ok (outcome, next) => (.ok outcome, next)
  | .error error => (.error error, archive)

theorem enforce_of_settle_eq_ok (archive : Archive) (written : AssetOutcome × Archive) {a b : α}
    (h : behavior.settle written.1.dropped a = .ok b) :
    behavior.enforce archive written = (.ok written.1, written.2) := by
  rw [enforce, ← settle_map (fun _ ↦ written) _ a, h]
  rfl

theorem enforce_of_settle_eq_error (archive : Archive) (written : AssetOutcome × Archive) {a : α}
    {error : StoreError} (h : behavior.settle written.1.dropped a = .error error) :
    behavior.enforce archive written = (.error error, archive) := by
  rw [enforce, ← settle_map (fun _ ↦ written) _ a, h]
  rfl

theorem enforce_of_ne (hbehavior : behavior ≠ .raise) (archive : Archive)
    (written : AssetOutcome × Archive) :
    behavior.enforce archive written = (.ok written.1, written.2) :=
  enforce_of_settle_eq_ok archive written (settle_of_ne hbehavior _ ())

theorem enforce_of_nil (archive : Archive) (written : AssetOutcome × Archive)
    (h : written.1.dropped = []) : behavior.enforce archive written = (.ok written.1, written.2) :=
  enforce_of_settle_eq_ok archive written (h ▸ behavior.settle_nil ())

theorem enforce_raise_of_cons {archive : Archive} {written : AssetOutcome × Archive}
    {segment : DroppedSegment} {rest : List DroppedSegment}
    (h : written.1.dropped = segment :: rest) :
    raise.enforce archive written = (.error segment.reason, archive) := by
  rw [enforce, h]
  rfl

/-- Only a write that raises fails, and it changes nothing. -/
theorem eq_raise_of_enforce {archive : Archive} {written : AssetOutcome × Archive}
    {error : StoreError} (h : (behavior.enforce archive written).1 = .error error) :
    behavior = .raise ∧ (behavior.enforce archive written).2 = archive := by
  by_cases hbehavior : behavior = .raise
  · subst hbehavior
    cases hdropped : written.1.dropped with
    | nil =>
      rw [enforce_of_nil archive written hdropped] at h
      cases h
    | cons segment rest =>
      rw [enforce_raise_of_cons hdropped]
      exact ⟨rfl, rfl⟩
  · rw [enforce_of_ne hbehavior] at h
    cases h

end Behavior

/-- The bounds of an asset are in the order of days, where its days lie in the years 0 to 9999. -/
theorem Store.assetBounds?_le {store : Store} {asset : AssetId}
    (h : ∀ bar ∈ store.assetRows asset, bar.day.IsUnsigned) {first last : Day}
    (hbounds : store.assetBounds? asset = some (first, last)) : first ≤ last := by
  have hdays : ∀ day ∈ (store.assetRows asset).map Bar.day, day.IsUnsigned :=
    List.forall_mem_map.2 h
  obtain ⟨⟨hfirst, hleast⟩, hlast, -⟩ := Day.textBounds?_spec hbounds
  exact (Day.textLe_iff_le (hdays first hfirst) (hdays last hlast)).1 (hleast last hlast)

namespace Writer

/-! ### Plans -/

/-- The plans of the three dispositions are one plan, with what is dropped settled by each of
them. -/
def IsSettled (planning : Behavior → Except StoreError Plan) : Prop :=
  ∃ plan : Plan, ∀ behavior, planning behavior = behavior.settle plan.dropped plan

/-- What is not stored is the only segment that is dropped. -/
theorem isSettled_drop (kind : SegmentKind) (rows : Nat) (reason : StoreError) :
    IsSettled fun behavior ↦ (drop behavior kind rows reason).map (Plan.mk []) :=
  ⟨⟨[], [⟨kind, rows, reason⟩]⟩, fun behavior ↦ by cases behavior <;> rfl⟩

/-- A plan that drops nothing is settled in any case. -/
theorem isSettled_ok (accepted : List Bar) : IsSettled fun _ ↦ .ok ⟨accepted, []⟩ :=
  ⟨⟨accepted, []⟩, fun behavior ↦ (behavior.settle_nil _).symm⟩

theorem isSettled_planInitial (calendar : Calendar) (asset : AssetId) (bars : List Bar) :
    IsSettled fun behavior ↦ planInitial calendar behavior asset bars := by
  unfold planInitial
  cases (calendar.check (bars.map Bar.day)).toError? asset bars with
  | none => exact isSettled_ok bars
  | some error => exact isSettled_drop _ _ error

theorem isSettled_planEdge (calendar : Calendar) (asset : AssetId) (edge : Edge)
    (segment : List Bar) (boundary : Option Bar) (storedBoundary : Day) :
    IsSettled fun behavior ↦
      planEdge calendar behavior asset edge segment boundary storedBoundary := by
  unfold planEdge
  cases boundary with
  | none => exact isSettled_ok []
  | some bar =>
    dsimp only
    cases checkSegment calendar asset edge segment bar.day storedBoundary with
    | ok _ => exact isSettled_ok segment
    | error error => exact isSettled_drop _ _ error

theorem isSettled_planOverlap (asset : AssetId) (overlap : List Bar) (first last : Day) :
    IsSettled fun behavior ↦ planOverlap behavior asset overlap first last := by
  unfold planOverlap
  split
  · exact isSettled_ok []
  · exact isSettled_drop _ _ _

/-- The parts are settled in the order in which the plan lists what it drops of them. -/
theorem isSettled_planAround (calendar : Calendar) (asset : AssetId) (first last : Day)
    (bars : List Bar) :
    IsSettled fun behavior ↦ planAround calendar behavior asset first last bars := by
  obtain ⟨overlap, hoverlap⟩ :=
    isSettled_planOverlap asset (barsWithin first last bars) first last
  obtain ⟨before, hbefore⟩ := isSettled_planEdge calendar asset .before (barsBefore first bars)
    (barsBefore first bars).getLast? first
  obtain ⟨after, hafter⟩ := isSettled_planEdge calendar asset .after (barsAfter last bars)
    (barsAfter last bars).head? last
  refine ⟨⟨before.accepted ++ after.accepted,
    overlap.dropped ++ (before.dropped ++ (after.dropped ++ []))⟩, fun behavior ↦ ?_⟩
  unfold planAround
  dsimp only at hoverlap hbefore hafter ⊢
  rw [hoverlap, hbefore, hafter]
  refine Behavior.settle_bind (Behavior.settle_bind (Behavior.settle_bind ?_))
  rw [Behavior.settle_nil, List.append_nil, ← List.append_assoc]
  rfl

/-- **A plan does not depend on the disposition**, which only settles what it drops. Where the
bounds of the stored span are not in order there may be no plan at all. -/
theorem isSettled_planBars_or (calendar : Calendar) (bounds : Option (Day × Day)) (asset : AssetId)
    (bars : List Bar) :
    IsSettled (fun behavior ↦ planBars calendar behavior bounds asset bars) ∨
      (∀ behavior, planBars calendar behavior bounds asset bars = .error .stopped) ∧
        ∃ first last, bounds = some (first, last) ∧ last < first := by
  unfold planBars
  split
  · exact Or.inl (isSettled_ok [])
  cases sequenceFault? asset bars with
  | some error => exact Or.inl (isSettled_drop _ _ error)
  | none =>
    cases bounds with
    | none => exact Or.inl (isSettled_planInitial calendar asset bars)
    | some bounds =>
      obtain ⟨first, last⟩ := bounds
      by_cases hle : first ≤ last
      · simp only [planExtension_of_le hle]
        exact Or.inl (isSettled_planAround calendar asset first last bars)
      · simp only [planExtension]
        split
        · exact Or.inr ⟨fun _ ↦ rfl, first, last, rfl, not_le.1 hle⟩
        · exact Or.inl (isSettled_planAround calendar asset first last bars)

theorem isSettled_planBars (calendar : Calendar) {bounds : Option (Day × Day)}
    (hbounds : ∀ first last, bounds = some (first, last) → first ≤ last) (asset : AssetId)
    (bars : List Bar) :
    IsSettled fun behavior ↦ planBars calendar behavior bounds asset bars :=
  (isSettled_planBars_or calendar bounds asset bars).resolve_right
    fun ⟨_, first, last, heq, hlt⟩ ↦ not_le.2 hlt (hbounds first last heq)

/-! ### Writes -/

/-- **A write of numbers is settled as its plan**: it stores all that the plan accepts, or fails and
changes nothing. -/
theorem exists_writeBars_enforce {calendar : Calendar} {asset : AssetId} {bars : List Bar}
    {archive : Archive} (hwritable : archive.isReadOnly = false)
    (hnumbers : ∀ bar ∈ bars, bar.hasNaN = false)
    (hplans : IsSettled fun behavior ↦
      planBars calendar behavior (archive.store.assetBounds? asset) asset bars) :
    ∃ written, ∀ behavior : Behavior,
      writeBars calendar behavior asset bars archive = behavior.enforce archive written := by
  obtain ⟨plan, hplan⟩ := hplans
  have hwarn : planBars calendar .warn (archive.store.assetBounds? asset) asset bars = .ok plan :=
    hplan .warn
  obtain ⟨next, hnext, -⟩ := exists_writeBars_eq hwritable hwarn fun bar hbar ↦
    hnumbers bar ((accepts_of_planBars hwarn).mem hbar).1
  refine ⟨(.written asset plan.accepted.length plan.dropped, next), fun behavior ↦ ?_⟩
  have hbehavior : planBars calendar behavior (archive.store.assetBounds? asset) asset bars =
      behavior.settle plan.dropped plan := hplan behavior
  -- The write reports what the plan drops, so the two are settled in the same way.
  cases hsettle : behavior.settle plan.dropped plan with
  | error error =>
    rw [Behavior.enforce_of_settle_eq_error archive _ hsettle]
    exact writeBars_of_error (hbehavior.trans hsettle)
  | ok settled =>
    rw [Behavior.enforce_of_settle_eq_ok archive _ hsettle, ← hnext, writeBars, writeBars, hwarn,
      hbehavior, hsettle, Behavior.eq_of_settle_eq_ok hsettle]

/-! ### Tables -/

/-- A table that is not stored at all is the only segment that is dropped of it. -/
theorem reject_eq_enforce (behavior : Behavior) (asset : AssetId) (rows : Nat) (error : StoreError)
    (archive : Archive) :
    ((drop behavior .table rows error).map (AssetOutcome.written asset 0), archive) =
      behavior.enforce archive (.written asset 0 [⟨.table, rows, error⟩], archive) := by
  cases behavior <;> rfl

/-- What becomes of a table is settled by each of the dispositions. -/
def Settles (calendar : Calendar) (known : Option (List AssetId)) (source : Source)
    (archive : Archive) : Prop :=
  ∃ written, ∀ behavior : Behavior,
    writeSource calendar behavior known source archive = behavior.enforce archive written

/-- **What becomes of a table is settled as well**, whether it is skipped, refused or written: the
bars of a table have only numbers. Otherwise the program stops at it under every disposition, and
then a day that is stored of its asset lies outside of the years 0 to 9999. -/
theorem settles_or_stops (calendar : Calendar) (known : Option (List AssetId)) (source : Source)
    {archive : Archive} (hwritable : archive.isReadOnly = false) :
    Settles calendar known source archive ∨
      (∀ behavior, writeSource calendar behavior known source archive =
        (.error .stopped, archive)) ∧
      ∃ bar ∈ archive.store.assetRows source.1, ¬bar.day.IsUnsigned := by
  obtain ⟨asset, table⟩ := source
  unfold Settles writeSource writeTable
  split
  · cases table with
    | error error =>
      exact Or.inl ⟨_, fun behavior ↦ reject_eq_enforce behavior asset 0 error archive⟩
    | ok table =>
      dsimp only
      cases hbars : table.bars asset with
      | error error =>
        exact Or.inl ⟨_, fun behavior ↦
          reject_eq_enforce behavior asset table.height error archive⟩
      | ok bars =>
        rcases isSettled_planBars_or calendar (archive.store.assetBounds? asset) asset bars with
          hplans | ⟨hstops, first, last, hbounds, hlt⟩
        · exact Or.inl (exists_writeBars_enforce hwritable
            (fun bar ↦ Table.hasNaN_of_mem_bars hbars) hplans)
        · refine Or.inr ⟨fun behavior ↦ writeBars_of_error (hstops behavior), ?_⟩
          by_contra hdays
          exact not_le.2 hlt (Store.assetBounds?_le (by simpa using hdays) hbounds)
  · exact Or.inl ⟨_, fun _ ↦ (Behavior.enforce_of_nil archive (.skipped asset, archive) rfl).symm⟩

theorem settles_of_isUnsigned (calendar : Calendar) (known : Option (List AssetId))
    {source : Source} {archive : Archive} (hwritable : archive.isReadOnly = false)
    (hdays : ∀ bar ∈ archive.store.rows, bar.day.IsUnsigned) :
    Settles calendar known source archive :=
  (settles_or_stops calendar known source hwritable).resolve_right
    fun ⟨_, bar, hbar, hday⟩ ↦ hday (hdays bar (Store.mem_assetRows.1 hbar).1)

/-! ### Batches -/

/-- **One table of a batch**: unless the disposition raises and something is dropped, the batch goes
on in the same way; and a batch that raises ends with the first segment that is dropped. -/
theorem exists_writeFrom_cons {calendar : Calendar} {known : Option (List AssetId)}
    {source : Source} {archive : Archive} (hwritable : archive.isReadOnly = false)
    (hsettles : Settles calendar known source archive) (position : Nat) (summary : WriteSummary) :
    ∃ own next, next.isReadOnly = false ∧
      (∀ behavior rest, behavior ≠ .raise ∨ own.dropped = [] →
        writeFrom calendar behavior known (source :: rest) position summary archive =
          (writeFrom calendar behavior known rest (position + 1) (summary.record own) next).after
            [.started source.1 position, .completed position own]) ∧
      ∀ rest segment, own.dropped.head? = some segment →
        writeFrom calendar .raise known (source :: rest) position summary archive =
          ⟨.error segment.reason, [.started source.1 position], archive⟩ := by
  obtain ⟨⟨own, next⟩, hsource⟩ := hsettles
  refine ⟨own, next, ?_, fun behavior rest hgoes ↦ ?_, fun rest segment hhead ↦ ?_⟩
  · have hextends := extends_writeSource calendar .warn known source archive
    rw [hsource, Behavior.enforce_of_ne (by decide)] at hextends
    exact hextends.isReadOnly_eq.trans hwritable
  · have henforce : behavior.enforce archive (own, next) = (.ok own, next) := by
      rcases hgoes with hbehavior | hclean
      · exact Behavior.enforce_of_ne hbehavior archive (own, next)
      · exact Behavior.enforce_of_nil archive (own, next) hclean
    rw [writeFrom_cons, hsource, henforce]
  · obtain ⟨later, hdropped⟩ := List.head?_eq_some_iff.1 hhead
    rw [writeFrom_cons, hsource, Behavior.enforce_raise_of_cons hdropped]

/-- The table at a position is the first of which something is dropped, and the segment is the first
of it that is. -/
def IsFirstDrop (outcomes : List AssetOutcome) (k : Nat) (segment : DroppedSegment) : Prop :=
  (∃ outcome, outcomes[k]? = some outcome ∧ outcome.dropped.head? = some segment) ∧
    ∀ earlier ∈ outcomes.take k, earlier.dropped = []

theorem outcomes_foldl_record (outcomes : List AssetOutcome) (summary : WriteSummary) :
    (outcomes.foldl WriteSummary.record summary).outcomes = summary.outcomes ++ outcomes := by
  induction outcomes generalizing summary with
  | nil => exact (List.append_nil _).symm
  | cons outcome rest ih =>
    rw [List.foldl_cons, ih]
    exact (List.append_cons _ _ _).symm

/-- The tables of a batch have these outcomes if nothing is raised. Either they are all, or the
program stops at the one behind them, and then a stored day lies outside of the years 0 to 9999. -/
inductive Ends (sources : List Source) (outcomes : List AssetOutcome) (summary : WriteSummary)
    (batch : List Source → BatchResult) : Prop
  | completed (hlength : outcomes.length = sources.length)
      (hresult : (batch sources).result = .ok (outcomes.foldl WriteSummary.record summary))
  | stopped (hlength : outcomes.length < sources.length)
      (hbefore : (batch (sources.take outcomes.length)).result =
        .ok (outcomes.foldl WriteSummary.record summary))
      (hresult : (batch sources).result = .error .stopped)
      (hday : ∃ bar ∈ (batch sources).archive.store.rows, ¬bar.day.IsUnsigned)

/-- The outcome of a table is put before those of the rest. -/
theorem Ends.cons {source : Source} {rest : List Source} {own : AssetOutcome}
    {outcomes : List AssetOutcome} {summary : WriteSummary} {events : List WriteEvent}
    {batch later : List Source → BatchResult}
    (hgoes : ∀ sources, batch (source :: sources) = (later sources).after events)
    (h : Ends rest outcomes (summary.record own) later) :
    Ends (source :: rest) (own :: outcomes) summary batch := by
  cases h with
  | completed hlength hresult =>
    refine .completed (congrArg (· + 1) hlength) ?_
    rw [hgoes]
    exact hresult
  | stopped hlength hbefore hresult hday =>
    refine .stopped (Nat.succ_lt_succ hlength) ?_ ?_ ?_
    · rw [List.length_cons, List.take_succ_cons, hgoes]
      exact hbefore
    · rw [hgoes]
      exact hresult
    · rw [hgoes]
      exact hday

/-- **A batch that raises is the one that does not, cut at the first drop**: where nothing is
dropped the two are the same, and otherwise it fails with the reason, and leaves what the tables
before it left. -/
theorem writeFrom_raise (calendar : Calendar) (known : Option (List AssetId))
    (sources : List Source) {archive : Archive} (hwritable : archive.isReadOnly = false)
    (position : Nat) (summary : WriteSummary) :
    let batch := fun behavior sources ↦
      writeFrom calendar behavior known sources position summary archive
    batch .ignore sources = batch .warn sources ∧
    ∃ outcomes, Ends sources outcomes summary (batch .warn) ∧
      ((∀ outcome ∈ outcomes, outcome.dropped = []) ∧ batch .raise sources = batch .warn sources ∨
        ∃ k segment, IsFirstDrop outcomes k segment ∧
          (batch .raise sources).result = .error segment.reason ∧
          (batch .raise sources).archive = (batch .warn (sources.take k)).archive) := by
  induction sources generalizing archive position summary with
  | nil => exact ⟨rfl, [], .completed rfl rfl, Or.inl ⟨List.forall_mem_nil _, rfl⟩⟩
  | cons source rest ih =>
    rcases settles_or_stops calendar known source hwritable with
      hsettles | ⟨hstops, bar, hbar, hday⟩
    · obtain ⟨own, next, hnext, hgoes, hends⟩ :=
        exists_writeFrom_cons hwritable hsettles position summary
      obtain ⟨hignore, outcomes, hwarn, hraise⟩ := ih hnext (position + 1) (summary.record own)
      have hwarnGoes := fun sources ↦ hgoes .warn sources (Or.inl (by decide))
      dsimp only at hignore hwarn hraise ⊢
      refine ⟨?_, own :: outcomes, hwarn.cons hwarnGoes, ?_⟩
      · rw [hwarnGoes, hgoes .ignore rest (Or.inl (by decide)), hignore]
      cases hdropped : own.dropped with
      | nil =>
        rw [hgoes .raise rest (Or.inr hdropped), hwarnGoes]
        rcases hraise with ⟨hclean, hsame⟩ | ⟨k, segment, ⟨hfirst, hearlier⟩, hresult, hleft⟩
        · rw [hsame]
          exact Or.inl ⟨List.forall_mem_cons.2 ⟨hdropped, hclean⟩, rfl⟩
        · refine Or.inr ⟨k + 1, segment, ⟨hfirst, ?_⟩, hresult, ?_⟩
          · exact List.forall_mem_cons.2 ⟨hdropped, hearlier⟩
          · rw [List.take_succ_cons, hwarnGoes]
            exact hleft
      | cons segment later =>
        have hhead : own.dropped.head? = some segment := by rw [hdropped]; rfl
        rw [hends rest segment hhead]
        exact Or.inr ⟨0, segment, ⟨⟨own, rfl, hhead⟩, List.forall_mem_nil _⟩, rfl, rfl⟩
    · -- The program stops at the first table, whatever the disposition.
      have hbatch : ∀ behavior,
          writeFrom calendar behavior known (source :: rest) position summary archive =
            ⟨.error .stopped, [.started source.1 position], archive⟩ := fun behavior ↦ by
        rw [writeFrom_cons, hstops]
      dsimp only
      rw [hbatch .ignore, hbatch .raise, hbatch .warn]
      refine ⟨rfl, [], .stopped (Nat.succ_pos _) rfl ?_ ?_, Or.inl ⟨List.forall_mem_nil _, rfl⟩⟩
      · rw [hbatch]
      · rw [hbatch]
        exact ⟨bar, (Store.mem_assetRows.1 hbar).1, hday⟩

/-- **A batch that does not raise comes to its end**, with one outcome for each table, if all stored
days lie in the years 0 to 9999. -/
theorem exists_result_of_ne {behavior : Behavior} (hbehavior : behavior ≠ .raise)
    (calendar : Calendar) (known : Option (List AssetId)) (sources : List Source)
    {archive : Archive} (hwritable : archive.isReadOnly = false)
    (hdays : ∀ bar ∈ (writeTables calendar behavior known sources archive).archive.store.rows,
      bar.day.IsUnsigned) :
    ∃ summary, (writeTables calendar behavior known sources archive).result = .ok summary ∧
      summary.outcomes.length = sources.length := by
  obtain ⟨hignore, outcomes, hends, -⟩ :=
    writeFrom_raise calendar known sources hwritable 0 .empty
  have hwarn : writeTables calendar behavior known sources archive =
      writeFrom calendar .warn known sources 0 .empty archive := by
    cases behavior with
    | raise => exact absurd rfl hbehavior
    | warn => rfl
    | ignore => exact hignore
  rw [hwarn] at hdays ⊢
  cases hends with
  | completed hlength hresult =>
    refine ⟨_, hresult, ?_⟩
    rw [outcomes_foldl_record, ← hlength]
    exact congrArg List.length (List.nil_append outcomes)
  | stopped _ _ _ hday =>
    obtain ⟨bar, hbar, hday⟩ := hday
    exact absurd (hdays bar hbar) hday

end Writer

end DailyBars
