import DailyBars.Proofs.Writer.Dispositions
import DailyBars.Proofs.Writer.Repetition
import Mathlib

/-!
# Every row is accounted for

A plan parts the bars that it is given: each bar is accepted or belongs to one of the segments that
are dropped, and a dropped segment says how many bars it has (`Writer.Plan.Parts`). The parts of an
extension are cut at the bounds of the stored span. They are all of the list **only where the first
bound is not after the last** (`Writer.barsBefore_append`), which days of the years 0 to 9999 see to
(`Store.assetBounds?_le`), under any calendar.

So what becomes of a table in a batch is one of four things (`Writer.Accounts`): it is skipped, it
was not read, it is refused as a whole, or its bars are parted. A batch that does not raise accounts
for each of its tables, one after the other (`Writer.exists_writeFrom_eq`), and what it adds to the
store is what it adds for its tables.
-/

namespace DailyBars

/-! ### Totals -/

namespace WriteSummary

/-- The totals of a summary are the sums over its outcomes. -/
structure IsTotal (summary : WriteSummary) : Prop where
  rowsWritten : summary.rowsWritten = (summary.outcomes.map AssetOutcome.rowsWritten).sum
  droppedSegments : summary.droppedSegments =
    (summary.outcomes.map fun outcome ↦ outcome.dropped.length).sum
  skippedAssets : summary.skippedAssets = summary.outcomes.countP AssetOutcome.isSkipped

theorem isTotal_empty : empty.IsTotal := ⟨rfl, rfl, rfl⟩

theorem IsTotal.record {summary : WriteSummary} (h : summary.IsTotal) (outcome : AssetOutcome) :
    (summary.record outcome).IsTotal where
  rowsWritten := by
    show summary.rowsWritten + outcome.rowsWritten = _
    rw [h.rowsWritten, WriteSummary.record, List.map_append, List.sum_append]
    rfl
  droppedSegments := by
    show summary.droppedSegments + outcome.dropped.length = _
    rw [h.droppedSegments, WriteSummary.record, List.map_append, List.sum_append]
    rfl
  skippedAssets := by
    show summary.skippedAssets + _ = _
    rw [h.skippedAssets, WriteSummary.record, List.countP_append, List.countP_singleton]

theorem IsTotal.foldl_record {summary : WriteSummary} (h : summary.IsTotal)
    (outcomes : List AssetOutcome) : (outcomes.foldl WriteSummary.record summary).IsTotal := by
  induction outcomes generalizing summary with
  | nil => exact h
  | cons outcome rest ih => exact ih (h.record outcome)

end WriteSummary

namespace Writer

variable {calendar : Calendar} {behavior : Behavior} {asset : AssetId} {bars : List Bar}

/-! ### Plans -/

/-- Each bar is accepted or belongs to one of the dropped segments, which say how many they have. -/
def Plan.Parts (plan : Plan) (bars : List Bar) : Prop :=
  ∃ segments : List (List Bar), bars.Perm (plan.accepted ++ segments.flatten) ∧
    plan.dropped.map DroppedSegment.rows = segments.map List.length

namespace Plan.Parts

theorem nil : Parts ⟨[], []⟩ [] := ⟨[], List.Perm.refl _, rfl⟩

theorem of_accepted (bars : List Bar) : Parts ⟨bars, []⟩ bars :=
  ⟨[], by rw [List.flatten_nil, List.append_nil], rfl⟩

theorem of_dropped (kind : SegmentKind) (reason : StoreError) (bars : List Bar) :
    Parts ⟨[], [⟨kind, bars.length, reason⟩]⟩ bars :=
  ⟨[bars], by rw [List.flatten_singleton, List.nil_append], rfl⟩

theorem append {p q : Plan} {xs ys : List Bar} (hp : p.Parts xs) (hq : q.Parts ys) :
    Parts ⟨p.accepted ++ q.accepted, p.dropped ++ q.dropped⟩ (xs ++ ys) := by
  obtain ⟨segments, hperm, hrows⟩ := hp
  obtain ⟨others, hperm', hrows'⟩ := hq
  refine ⟨segments ++ others, ?_, ?_⟩
  · rw [List.flatten_append]
    refine (hperm.append hperm').trans ?_
    rw [List.append_assoc, List.append_assoc]
    refine List.Perm.append_left _ ?_
    rw [← List.append_assoc, ← List.append_assoc]
    exact List.perm_append_comm.append_right _
  · rw [List.map_append, List.map_append, hrows, hrows']

theorem perm {plan : Plan} {xs ys : List Bar} (h : plan.Parts xs) (hperm : ys.Perm xs) :
    plan.Parts ys := by
  obtain ⟨segments, hparts, hrows⟩ := h
  exact ⟨segments, hperm.trans hparts, hrows⟩

/-- **The accepted bars and the rows of the dropped segments add up.** -/
theorem length_add {plan : Plan} (h : plan.Parts bars) :
    plan.accepted.length + (plan.dropped.map DroppedSegment.rows).sum = bars.length := by
  obtain ⟨segments, hperm, hrows⟩ := h
  rw [hperm.length_eq, List.length_append, List.length_flatten, hrows]

end Plan.Parts

theorem parts_of_drop {kind : SegmentKind} {reason : StoreError} {plan : Plan}
    (h : (drop behavior kind bars.length reason).map (Plan.mk []) = .ok plan) :
    plan.Parts bars := by
  cases behavior with
  | raise => cases h
  | warn =>
    cases h
    exact .of_dropped kind reason bars
  | ignore =>
    cases h
    exact .of_dropped kind reason bars

theorem parts_of_planInitial {plan : Plan}
    (h : planInitial calendar behavior asset bars = .ok plan) : plan.Parts bars := by
  rw [planInitial] at h
  split at h
  · cases h
    exact .of_accepted bars
  · exact parts_of_drop h

theorem parts_of_planEdge {edge : Edge} {segment : List Bar} {boundary : Option Bar}
    {storedBoundary : Day} {plan : Plan} (hnone : boundary = none → segment = [])
    (h : planEdge calendar behavior asset edge segment boundary storedBoundary = .ok plan) :
    plan.Parts segment := by
  cases boundary with
  | none =>
    cases h
    rw [hnone rfl]
    exact .nil
  | some bar =>
    rw [planEdge] at h
    split at h
    · cases h
      exact .of_accepted segment
    · exact parts_of_drop h

theorem parts_of_planOverlap {overlap : List Bar} {first last : Day} {plan : Plan}
    (h : planOverlap behavior asset overlap first last = .ok plan) :
    plan.accepted = [] ∧ plan.Parts overlap := by
  rw [planOverlap] at h
  split at h
  · rename_i hempty
    cases h
    rw [List.isEmpty_iff.1 hempty]
    exact ⟨rfl, .nil⟩
  · exact ⟨accepted_of_drop h, parts_of_drop h⟩

theorem parts_of_planExtension {first last : Day} (hle : first ≤ last) {plan : Plan}
    (h : planExtension calendar behavior asset first last bars = .ok plan) : plan.Parts bars := by
  obtain ⟨overlap, hoverlap, h⟩ := Result.bind_eq_ok_iff.1 (planAround_of_planExtension h)
  obtain ⟨before, hbefore, h⟩ := Result.bind_eq_ok_iff.1 h
  obtain ⟨after, hafter, h⟩ := Result.bind_eq_ok_iff.1 h
  cases h
  obtain ⟨hnone, hwithin⟩ := parts_of_planOverlap hoverlap
  have hall := (hwithin.append (parts_of_planEdge List.getLast?_eq_none_iff.1 hbefore)).append
    (parts_of_planEdge List.head?_eq_none_iff.1 hafter)
  rw [hnone, List.nil_append] at hall
  refine hall.perm ?_
  conv_lhs => rw [← barsBefore_append hle bars]
  exact List.perm_append_comm.append_right _

/-- **A plan parts its bars**, if the bounds of the stored span are in order. -/
theorem parts_of_planBars {bounds : Option (Day × Day)}
    (hbounds : ∀ first last, bounds = some (first, last) → first ≤ last) {plan : Plan}
    (h : planBars calendar behavior bounds asset bars = .ok plan) : plan.Parts bars := by
  unfold planBars at h
  split at h
  · rename_i hempty
    cases h
    rw [List.isEmpty_iff.1 hempty]
    exact .nil
  cases hfault : sequenceFault? asset bars with
  | some error =>
    rw [hfault] at h
    exact parts_of_drop h
  | none =>
    rw [hfault] at h
    cases bounds with
    | none => exact parts_of_planInitial h
    | some bounds => exact parts_of_planExtension (hbounds bounds.1 bounds.2 rfl) h

/-! ### Tables -/

/-- What becomes of a table in a batch that does not raise, and the bars that are added for it. -/
inductive Accounts (known : Option (List AssetId)) : Source → List Bar → AssetOutcome → Prop
  | skipped {asset : AssetId} {table : Except StoreError Table}
      (hknown : isKnown known asset = false) : Accounts known (asset, table) [] (.skipped asset)
  | unread {asset : AssetId} {error : StoreError} (hknown : isKnown known asset = true) :
      Accounts known (asset, .error error) [] (.written asset 0 [⟨.table, 0, error⟩])
  | refused {asset : AssetId} {table : Table} {error : StoreError}
      (hknown : isKnown known asset = true) (htable : table.bars asset = .error error) :
      Accounts known (asset, .ok table) [] (.written asset 0 [⟨.table, table.height, error⟩])
  | parted {asset : AssetId} {table : Table} {bars : List Bar} {plan : Plan}
      (hknown : isKnown known asset = true) (htable : table.bars asset = .ok bars)
      (hparts : plan.Parts bars) :
      Accounts known (asset, .ok table) plan.accepted
        (.written asset plan.accepted.length plan.dropped)

namespace Accounts

variable {known : Option (List AssetId)} {source : Source} {added : List Bar}
  {outcome : AssetOutcome} {table : Table}

theorem asset_eq (h : Accounts known source added outcome) : outcome.asset = source.1 := by
  cases h <;> rfl

theorem isSkipped_eq (h : Accounts known source added outcome) :
    outcome.isSkipped = !isKnown known source.1 := by
  cases h with
  | skipped hknown => rw [hknown]; rfl
  | unread hknown => rw [hknown]; rfl
  | refused hknown _ => rw [hknown]; rfl
  | parted hknown _ _ => rw [hknown]; rfl

theorem rowsWritten_eq (h : Accounts known source added outcome) :
    outcome.rowsWritten = added.length := by
  cases h <;> rfl

/-- **The rows of a table that is not skipped are written or counted as dropped.** -/
theorem rowsWritten_add (h : Accounts known (asset, .ok table) added outcome)
    (hskipped : outcome.isSkipped = false) :
    outcome.rowsWritten + (outcome.dropped.map DroppedSegment.rows).sum = table.height := by
  cases h with
  | skipped _ => cases hskipped
  | refused _ _ => exact Nat.zero_add _
  | parted _ htable hparts => exact hparts.length_add.trans (Table.length_bars htable)

/-- **Each bar of a table that is not skipped is added or belongs to one dropped segment.** -/
theorem exists_segments (h : Accounts known (asset, .ok table) added outcome)
    (hskipped : outcome.isSkipped = false) (htable : table.bars asset = .ok bars) :
    ∃ segments : List (List Bar), bars.Perm (added ++ segments.flatten) ∧
      outcome.dropped.map DroppedSegment.rows = segments.map List.length := by
  cases h with
  | skipped _ => cases hskipped
  | refused _ herror =>
    rw [herror] at htable
    cases htable
  | parted _ hfound hparts =>
    obtain rfl := Except.ok.inj (hfound.symm.trans htable)
    exact hparts

end Accounts

/-- Each of the tables is accounted for, by what is added for it and its outcome. -/
abbrev AccountsAll (known : Option (List AssetId)) (sources : List Source)
    (entries : List (List Bar × AssetOutcome)) : Prop :=
  List.Forall₂ (fun source entry ↦ Accounts known source entry.1 entry.2) sources entries

namespace AccountsAll

variable {known : Option (List AssetId)} {sources : List Source}
  {entries : List (List Bar × AssetOutcome)}

theorem map_asset_eq (h : AccountsAll known sources entries) :
    (entries.map Prod.snd).map AssetOutcome.asset = sources.map Prod.fst := by
  induction h with
  | nil => rfl
  | cons haccounts _ ih =>
    rw [List.map_cons, List.map_cons, List.map_cons, ih, haccounts.asset_eq]

theorem map_length_eq (h : AccountsAll known sources entries) :
    (entries.map Prod.fst).map List.length =
      (entries.map Prod.snd).map AssetOutcome.rowsWritten := by
  induction h with
  | nil => rfl
  | cons haccounts _ ih =>
    rw [List.map_cons, List.map_cons, List.map_cons, List.map_cons, ih, haccounts.rowsWritten_eq]

theorem accounts (h : AccountsAll known sources entries) {k : Nat} {source : Source}
    {added : List Bar} {outcome : AssetOutcome} (hsource : sources[k]? = some source)
    (houtcome : (entries.map Prod.snd)[k]? = some outcome)
    (hadded : (entries.map Prod.fst)[k]? = some added) : Accounts known source added outcome := by
  rw [List.getElem?_map, Option.map_eq_some_iff] at houtcome
  obtain ⟨entry, hentry, rfl⟩ := houtcome
  rw [List.getElem?_map, hentry, Option.map_some, Option.some_inj] at hadded
  subst hadded
  obtain ⟨hk, rfl⟩ := List.getElem?_eq_some_iff.1 hsource
  obtain ⟨hk', rfl⟩ := List.getElem?_eq_some_iff.1 hentry
  exact h.get hk hk'

end AccountsAll

variable {archive : Archive}

/-- **A table of a batch that does not raise is accounted for**, and what is added for it is all
that the store has more. -/
theorem exists_writeSource_eq (calendar : Calendar) (known : Option (List AssetId))
    (hbehavior : behavior ≠ .raise) (source : Source) (hwritable : archive.isReadOnly = false)
    (hdays : ∀ bar ∈ archive.store.rows, bar.day.IsUnsigned) :
    ∃ added outcome next, writeSource calendar behavior known source archive = (.ok outcome, next) ∧
      Accounts known source added outcome ∧
      next.store.rows.Perm (archive.store.rows ++ added.map Bar.stored) := by
  obtain ⟨asset, table⟩ := source
  have hsame : archive.store.rows.Perm (archive.store.rows ++ ([] : List Bar).map Bar.stored) := by
    rw [List.map_nil, List.append_nil]
  rw [writeSource]
  cases hknown : isKnown known asset with
  | false => exact ⟨[], _, archive, rfl, .skipped hknown, hsame⟩
  | true =>
    rw [if_pos rfl]
    unfold writeTable
    cases table with
    | error error =>
      dsimp only
      rw [drop_eq_ok hbehavior]
      exact ⟨[], _, archive, rfl, .unread hknown, hsame⟩
    | ok table =>
      dsimp only
      cases htable : table.bars asset with
      | error error =>
        dsimp only
        rw [drop_eq_ok hbehavior]
        exact ⟨[], _, archive, rfl, .refused hknown htable, hsame⟩
      | ok bars =>
        have hbounds : ∀ first last, archive.store.assetBounds? asset = some (first, last) →
            first ≤ last := fun _ _ ↦ Store.assetBounds?_le fun bar hbar ↦
          hdays bar (Store.mem_assetRows.1 hbar).1
        obtain ⟨plan, hsettled⟩ := isSettled_planBars calendar hbounds asset bars
        have hplan : planBars calendar behavior (archive.store.assetBounds? asset) asset bars =
            .ok plan := (hsettled behavior).trans (Behavior.settle_of_ne hbehavior _ plan)
        obtain ⟨next, hwritten, hstore, -⟩ := exists_writeBars_eq hwritable hplan fun bar hbar ↦
          Table.hasNaN_of_mem_bars htable ((accepts_of_planBars hplan).mem hbar).1
        exact ⟨plan.accepted, _, next, hwritten, .parted hknown htable
          (parts_of_planBars hbounds hplan),
          Store.rows_perm_of_append? hstore⟩

/-! ### Batches -/

/-- **A batch that does not raise comes to its end and accounts for all of its tables.** -/
theorem exists_writeFrom_eq (calendar : Calendar) {known : Option (List AssetId)}
    (hbehavior : behavior ≠ .raise) {sources : List Source}
    (hsources : ∀ source ∈ sources, ∀ bars, barsOf? known source = some bars →
      ∀ bar ∈ bars, bar.day.IsUnsigned)
    (hwritable : archive.isReadOnly = false)
    (hdays : ∀ bar ∈ archive.store.rows, bar.day.IsUnsigned) (position : Nat)
    (summary : WriteSummary) :
    let batch := writeFrom calendar behavior known sources position summary archive
    ∃ entries : List (List Bar × AssetOutcome),
      batch.result = .ok ((entries.map Prod.snd).foldl WriteSummary.record summary) ∧
      AccountsAll known sources entries ∧
      batch.archive.store.rows.Perm
        (archive.store.rows ++ ((entries.map Prod.fst).flatten).map Bar.stored) := by
  induction sources generalizing archive position summary with
  | nil =>
    refine ⟨[], rfl, .nil, ?_⟩
    rw [List.map_nil, List.flatten_nil, List.map_nil, List.append_nil]
    exact List.Perm.refl _
  | cons source rest ih =>
    obtain ⟨hown, hrest⟩ := List.forall_mem_cons.1 hsources
    obtain ⟨added, outcome, next, hwritten, haccounts, hperm⟩ :=
      exists_writeSource_eq calendar known hbehavior source hwritable hdays
    have hnextDays : ∀ bar ∈ (writeSource calendar behavior known source archive).2.store.rows,
        bar.day.IsUnsigned := days_writeSource hdays hown
    have hextends := extends_writeSource calendar behavior known source archive
    rw [hwritten] at hnextDays hextends
    obtain ⟨entries, hresult, hall, hrows⟩ := ih hrest (hextends.isReadOnly_eq.trans hwritable)
      hnextDays (position + 1) (summary.record outcome)
    rw [writeFrom_cons, hwritten]
    refine ⟨(added, outcome) :: entries, hresult, .cons haccounts hall, hrows.trans ?_⟩
    rw [List.map_cons, List.flatten_cons, List.map_append, ← List.append_assoc]
    exact hperm.append_right _

end Writer

end DailyBars
