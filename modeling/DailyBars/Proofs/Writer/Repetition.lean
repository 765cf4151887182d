import DailyBars.Proofs.Writer.Admission
import DailyBars.Proofs.Writer.Dispositions
import DailyBars.Proofs.Writer.Reports
import Mathlib

/-!
# Writing bars again

What was stored is inside the stored span when it is written again, and inside the span nothing is
ever stored. What was dropped is beyond a bound of the span still: **at each edge either all bars
beyond the bound were stored, and the new bound is beyond all of them, or none were, and the bound
is what it was** (`Writer.admittedAt_again`). So nothing more is admitted (`Writer.admitted_again`).

A batch repeats its tables one by one. The rows of an asset are touched by its own table only, if it
has just one, so the second time each table finds what it left the first time
(`Writer.writeFrom_again`). A batch that raised left off at some table; the same table fails again,
with the same rows stored.
-/

namespace DailyBars

namespace Edge

/-- The day lies beyond a bound at the edge. -/
def beyond (edge : Edge) (bound day : Day) : Bool :=
  match edge with
  | before => day < bound
  | after => bound < day

/-- Days with a bound next to them at the edge. -/
def join (edge : Edge) (bound : Day) (days : List Day) : List Day :=
  match edge with
  | before => days ++ [bound]
  | after => [bound] ++ days

variable {edge : Edge} {a b day : Day}

theorem eq_of_not_beyond (hab : edge.beyond a b = false) (hba : edge.beyond b a = false) :
    a = b := by
  cases edge with
  | before =>
    exact le_antisymm (not_lt.1 (of_decide_eq_false hab))
      (not_lt.1 (of_decide_eq_false hba))
  | after =>
    exact le_antisymm (not_lt.1 (of_decide_eq_false hba))
      (not_lt.1 (of_decide_eq_false hab))

/-- What is beyond a bound is beyond all that the bound encloses. -/
theorem beyond_of_not_beyond (h : edge.beyond a day = true) (hb : edge.beyond a b = false) :
    edge.beyond b day = true := by
  cases edge <;> simp only [beyond, decide_eq_true_eq, decide_eq_false_iff_not, Day.lt_iff] at * <;>
    omega

/-- Nothing is beyond both bounds of a span. -/
theorem not_beyond_after (h : a ≤ b) (hbefore : before.beyond a day = true) :
    after.beyond b day = false := by
  simp only [beyond, decide_eq_true_eq, decide_eq_false_iff_not, Day.lt_iff, Day.le_iff] at *
  omega

theorem not_beyond_head {days : List Day} (hdays : days.Pairwise (· < ·)) {first : Day}
    (hfirst : days.head? = some first) : ∀ day ∈ days, before.beyond first day = false :=
  fun _ hday ↦ decide_eq_false (not_lt.2 (Day.head_le_of_ascending hdays hfirst hday))

theorem not_beyond_getLast {days : List Day} (hdays : days.Pairwise (· < ·)) {last : Day}
    (hlast : days.getLast? = some last) : ∀ day ∈ days, after.beyond last day = false :=
  fun _ hday ↦ decide_eq_false (not_lt.2 (Day.le_getLast_of_ascending hdays hlast hday))

end Edge

namespace Writer

variable {calendar : Calendar} {asset : AssetId} {bars : List Bar} {edge : Edge}
  {days next : List Day} {bound later : Day}

/-! ### Admission again -/

/-- What is admitted of the bars beyond a bound: all or none. -/
def admittedAt (calendar : Calendar) (edge : Edge) (bound : Day) (bars : List Bar) : List Bar :=
  let part := bars.filter fun bar ↦ edge.beyond bound bar.day
  if calendar.IsRun (edge.join bound (part.map Bar.day)) then part else []

theorem admitted_eq_append (hbars : IsSequence asset bars) {first last : Day}
    (hfirst : days.head? = some first) (hlast : days.getLast? = some last) :
    admitted calendar asset days bars =
      admittedAt calendar .before first bars ++ admittedAt calendar .after last bars := by
  rw [admitted, if_pos hbars, hfirst, hlast]
  rfl

/-- Of an asset without stored days all bars are admitted or none. -/
theorem admitted_nil_eq (calendar : Calendar) (asset : AssetId) (bars : List Bar) :
    admitted calendar asset [] bars = bars ∨ admitted calendar asset [] bars = [] := by
  rw [admitted]
  split
  · exact ite_eq_or_eq _ bars []
  · exact Or.inr rfl

theorem admittedAt_eq (calendar : Calendar) (edge : Edge) (bound : Day) (bars : List Bar) :
    admittedAt calendar edge bound bars = bars.filter (fun bar ↦ edge.beyond bound bar.day) ∨
      admittedAt calendar edge bound bars = [] :=
  ite_eq_or_eq _ _ _

theorem beyond_of_mem_admittedAt {bar : Bar} (h : bar ∈ admittedAt calendar edge bound bars) :
    edge.beyond bound bar.day = true := by
  rw [(admittedAt_eq calendar edge bound bars).resolve_right (List.ne_nil_of_mem h)] at h
  exact (List.mem_filter.1 h).2

theorem admittedAt_of_forall (h : ∀ bar ∈ bars, edge.beyond bound bar.day = false) :
    admittedAt calendar edge bound bars = [] := by
  have hnone : (bars.filter fun bar ↦ edge.beyond bound bar.day) = [] :=
    List.filter_eq_nil_iff.2 fun bar hbar ↦ by simp [h bar hbar]
  rw [admittedAt, hnone, ite_self]

/-- **Nothing more is admitted at an edge**: if bars were stored there, then all that were beyond
the bound, and if none were, the bound is the same. -/
theorem admittedAt_again (hbound : bound ∈ next) (hlater : later ∈ next)
    (hends : ∀ day ∈ next, edge.beyond later day = false)
    (hstored : ∀ bar ∈ admittedAt calendar edge bound bars, bar.day ∈ next)
    (hnew : ∀ day ∈ next, edge.beyond bound day = true →
      ∃ bar ∈ admittedAt calendar edge bound bars, bar.day = day) :
    admittedAt calendar edge later bars = [] := by
  by_cases hnone : admittedAt calendar edge bound bars = []
  · have hsame : edge.beyond bound later = false := by
      by_contra hbeyond
      obtain ⟨bar, hbar, -⟩ := hnew later hlater (by simpa using hbeyond)
      rw [hnone] at hbar
      cases hbar
    rw [Edge.eq_of_not_beyond (hends bound hbound) hsame]
    exact hnone
  · have hall := (admittedAt_eq calendar edge bound bars).resolve_right hnone
    refine admittedAt_of_forall fun bar hbar ↦ ?_
    by_contra hbeyond
    have hbeyond : edge.beyond later bar.day = true := by simpa using hbeyond
    have hmem : bar.day ∈ next := hstored bar (by
      rw [hall]
      exact List.mem_filter.2 ⟨hbar, Edge.beyond_of_not_beyond hbeyond (hends bound hbound)⟩)
    rw [hends bar.day hmem] at hbeyond
    cases hbeyond

/-- Where a span is stored already, nothing more is admitted at either of its new ends: what is
beyond one of its old bounds is neither in the span nor beyond the other. -/
theorem admittedAt_again_of_ends (hdays : days.Pairwise (· < ·)) (hnext : next.Pairwise (· < ·))
    {first last first' last' : Day} (hfirst : days.head? = some first)
    (hlast : days.getLast? = some last) (hfirst' : next.head? = some first')
    (hlast' : next.getLast? = some last')
    (hmem : ∀ day, day ∈ next ↔ day ∈ days ∨ ∃ bar ∈ admittedAt calendar .before first bars ++
      admittedAt calendar .after last bars, bar.day = day) :
    admittedAt calendar .before first' bars = [] ∧ admittedAt calendar .after last' bars = [] := by
  have hspan : first ≤ last := Day.head_le_of_ascending hdays hfirst (List.mem_of_getLast? hlast)
  have hold : ∀ {day}, day ∈ days → day ∈ next := fun hday ↦ (hmem _).2 (Or.inl hday)
  obtain ⟨hbefore, hafter⟩ := List.forall_mem_append.1
    fun bar hbar ↦ (hmem bar.day).2 (Or.inr ⟨bar, hbar, rfl⟩)
  constructor
  · refine admittedAt_again (hold (List.mem_of_head? hfirst)) (List.mem_of_head? hfirst')
      (Edge.not_beyond_head hnext hfirst') hbefore fun day hday hbeyond ↦ ?_
    rcases (hmem day).1 hday with hday | ⟨bar, hbar, rfl⟩
    · rw [Edge.not_beyond_head hdays hfirst day hday] at hbeyond
      cases hbeyond
    rcases List.mem_append.1 hbar with hbar | hbar
    · exact ⟨bar, hbar, rfl⟩
    · have hother := beyond_of_mem_admittedAt hbar
      rw [Edge.not_beyond_after hspan hbeyond] at hother
      cases hother
  · refine admittedAt_again (hold (List.mem_of_getLast? hlast)) (List.mem_of_getLast? hlast')
      (Edge.not_beyond_getLast hnext hlast') hafter fun day hday hbeyond ↦ ?_
    rcases (hmem day).1 hday with hday | ⟨bar, hbar, rfl⟩
    · rw [Edge.not_beyond_getLast hdays hlast day hday] at hbeyond
      cases hbeyond
    rcases List.mem_append.1 hbar with hbar | hbar
    · rw [Edge.not_beyond_after hspan (beyond_of_mem_admittedAt hbar)] at hbeyond
      cases hbeyond
    · exact ⟨bar, hbar, rfl⟩

/-- **Nothing is admitted twice**: if the stored days are the old ones and those that were admitted,
nothing more of the same bars is. -/
theorem admitted_again (hdays : days.Pairwise (· < ·)) (hnext : next.Pairwise (· < ·))
    (hmem : ∀ day, day ∈ next ↔
      day ∈ days ∨ ∃ bar ∈ admitted calendar asset days bars, bar.day = day) :
    admitted calendar asset next bars = [] := by
  have hold : ∀ {day}, day ∈ days → day ∈ next := fun hday ↦ (hmem _).2 (Or.inl hday)
  have hstored : ∀ bar ∈ admitted calendar asset days bars, bar.day ∈ next :=
    fun bar hbar ↦ (hmem _).2 (Or.inr ⟨bar, hbar, rfl⟩)
  by_cases hbars : IsSequence asset bars
  swap
  · rw [admitted, if_neg hbars]
  by_cases hempty : next = []
  · -- Without a stored day none was admitted, and none was stored before.
    subst hempty
    obtain rfl : days = [] :=
      List.eq_nil_iff_forall_not_mem.2 fun _ hday ↦ List.not_mem_nil (hold hday)
    exact List.eq_nil_iff_forall_not_mem.2 fun bar hbar ↦ List.not_mem_nil (hstored bar hbar)
  obtain ⟨first', last', hfirst', hlast'⟩ := Calendar.exists_ends hempty
  rw [admitted_eq_append hbars hfirst' hlast', List.append_eq_nil_iff]
  by_cases hnone : days = []
  · -- All stored days were admitted, which only all bars together can be.
    subst hnone
    obtain ⟨bar, hbar, -⟩ := ((hmem first').1 (List.mem_of_head? hfirst')).resolve_left
      List.not_mem_nil
    rw [(admitted_nil_eq calendar asset bars).resolve_right (List.ne_nil_of_mem hbar)] at hstored
    exact ⟨admittedAt_of_forall fun bar hbar ↦
        Edge.not_beyond_head hnext hfirst' _ (hstored bar hbar),
      admittedAt_of_forall fun bar hbar ↦
        Edge.not_beyond_getLast hnext hlast' _ (hstored bar hbar)⟩
  · obtain ⟨first, last, hfirst, hlast⟩ := Calendar.exists_ends hnone
    rw [admitted_eq_append hbars hfirst hlast] at hmem
    exact admittedAt_again_of_ends hdays hnext hfirst hlast hfirst' hlast' hmem

/-! ### Writes again -/

variable {behavior first second : Behavior} {known : Option (List AssetId)}
  {archive later : Archive} {outcome : AssetOutcome}

/-- **A plan that does not fail accepts what is admitted**, under any disposition. -/
theorem accepted_eq_admitted (h : archive.store.IsContiguous calendar)
    (hcalendar : calendar.IsLawfulOn Day.IsUnsigned) (hunsigned : ∀ bar ∈ bars, bar.day.IsUnsigned)
    {plan : Plan}
    (hplan : planBars calendar behavior (archive.store.assetBounds? asset) asset bars = .ok plan) :
    plan.accepted =
      admitted calendar asset ((archive.store.assetRows asset).map Bar.day) bars := by
  have hdays : ∀ bar ∈ archive.store.assetRows asset, bar.day.IsUnsigned := fun bar hbar ↦
    h.unsigned bar (Store.mem_assetRows.1 hbar).1
  obtain ⟨same, hsame⟩ :=
    isSettled_planBars calendar (fun _ _ ↦ Store.assetBounds?_le hdays) asset bars
  obtain ⟨dropped, hwarn⟩ : ∃ dropped, planBars calendar .warn (archive.store.assetBounds? asset)
      asset bars =
        .ok ⟨admitted calendar asset ((archive.store.assetRows asset).map Bar.day) bars, dropped⟩ :=
    exists_planBars_eq (by decide) h hcalendar hunsigned
  obtain rfl := Except.ok.inj ((hsame .warn).symm.trans hwarn)
  rw [Behavior.eq_of_settle_eq_ok ((hsame behavior).symm.trans hplan)]

/-- **After a write that succeeded, the same bars change nothing**, under any disposition. -/
theorem writeBars_again (h : archive.store.IsContiguous calendar)
    (hlater : later.store.IsContiguous calendar) (hcalendar : calendar.IsLawfulOn Day.IsUnsigned)
    (hunsigned : ∀ bar ∈ bars, bar.day.IsUnsigned)
    (hok : (writeBars calendar first asset bars archive).1 = .ok outcome)
    (hrows : later.store.assetRows asset =
      (writeBars calendar first asset bars archive).2.store.assetRows asset) :
    (writeBars calendar second asset bars later).2 = later := by
  obtain ⟨plan, hplan, -, hstore⟩ := exists_plan_of_ok hok
  rw [accepted_eq_admitted h hcalendar hunsigned hplan] at hstore
  have hnone : admitted calendar asset ((later.store.assetRows asset).map Bar.day) bars = [] := by
    refine admitted_again (h.ascending hcalendar asset) (hlater.ascending hcalendar asset)
      fun day ↦ ?_
    rw [hrows]
    exact Store.mem_days_of_append? hstore fun bar hbar ↦ (mem_of_mem_admitted hbar).2
  rcases writeBars_cases calendar second asset bars later with
    ⟨error, hwritten⟩ | ⟨dropped, -, hwritten⟩ | ⟨again, next, hagain, hne, -, -⟩
  · rw [hwritten]
  · rw [hwritten]
  · exact absurd ((accepted_eq_admitted hlater hcalendar hunsigned hagain).trans hnone) hne

/-- A write that failed fails again, as long as the rows of the asset are the same. -/
theorem writeBars_again_of_error (hwritable : archive.isReadOnly = false)
    (hnumbers : ∀ bar ∈ bars, bar.hasNaN = false) {error : StoreError}
    (herror : (writeBars calendar behavior asset bars archive).1 = .error error)
    (hrows : later.store.assetRows asset = archive.store.assetRows asset) :
    writeBars calendar behavior asset bars later = (.error error, later) := by
  have hbounds : later.store.assetBounds? asset = archive.store.assetBounds? asset := by
    rw [Store.assetBounds?, hrows, Store.assetBounds?]
  cases hplan : planBars calendar behavior (archive.store.assetBounds? asset) asset bars with
  | error other =>
    rw [writeBars_of_error hplan] at herror
    cases herror
    exact writeBars_of_error (hbounds ▸ hplan)
  | ok plan =>
    obtain ⟨next, hwritten, -⟩ := exists_writeBars_eq hwritable hplan fun bar hbar ↦
      hnumbers bar ((accepts_of_planBars hplan).mem hbar).1
    rw [hwritten] at herror
    cases herror

/-! ### Batches again -/

/-- The bars of a table have only numbers. -/
theorem hasNaN_of_barsOf? {source : Source} (h : barsOf? known source = some bars) :
    ∀ bar ∈ bars, bar.hasNaN = false := by
  obtain ⟨asset, table⟩ := source
  cases table with
  | error error =>
    rw [barsOf?] at h
    split at h <;> cases h
  | ok table => exact fun bar ↦ Table.hasNaN_of_mem_bars (bars_of_barsOf? h)

theorem writeSource_again (h : archive.store.IsContiguous calendar)
    (hlater : later.store.IsContiguous calendar) (hcalendar : calendar.IsLawfulOn Day.IsUnsigned)
    {source : Source}
    (hunsigned : ∀ bars, barsOf? known source = some bars → ∀ bar ∈ bars, bar.day.IsUnsigned)
    (hok : (writeSource calendar first known source archive).1 = .ok outcome)
    (hrows : later.store.assetRows source.1 =
      (writeSource calendar first known source archive).2.store.assetRows source.1) :
    (writeSource calendar second known source later).2 = later := by
  cases hbars : barsOf? known source with
  | none => exact writeSource_of_none hbars
  | some bars =>
    rw [writeSource_of_some hbars] at hok hrows ⊢
    exact writeBars_again h hlater hcalendar (hunsigned bars hbars) hok hrows

theorem writeSource_again_of_error (hwritable : archive.isReadOnly = false) {source : Source}
    {error : StoreError}
    (herror : (writeSource calendar behavior known source archive).1 = .error error)
    (hrows : later.store.assetRows source.1 = archive.store.assetRows source.1) :
    writeSource calendar behavior known source later = (.error error, later) := by
  cases hbars : barsOf? known source with
  | none =>
    obtain ⟨result, hresult, -⟩ := exists_writeSource_of_none hbars
    rw [hresult] at herror
    rw [hresult, show result = .error error from herror]
  | some bars =>
    rw [writeSource_of_some hbars] at herror ⊢
    exact writeBars_again_of_error hwritable (hasNaN_of_barsOf? hbars) herror hrows

/-- Only a write that raises fails, and it leaves the archive as it was. -/
theorem eq_raise_of_error (hwritable : archive.isReadOnly = false)
    (hdays : ∀ bar ∈ archive.store.rows, bar.day.IsUnsigned) {source : Source} {error : StoreError}
    (herror : (writeSource calendar behavior known source archive).1 = .error error) :
    behavior = .raise ∧ (writeSource calendar behavior known source archive).2 = archive := by
  obtain ⟨written, hwritten⟩ := settles_of_isUnsigned calendar known hwritable hdays
  rw [hwritten] at herror ⊢
  exact Behavior.eq_raise_of_enforce herror

/-- **A batch changes nothing where each of its tables finds what the first time left**, if no asset
has two tables and the disposition still raises if it did. -/
theorem writeFrom_again (hcalendar : calendar.IsLawfulOn Day.IsUnsigned)
    (hraise : first = .raise → second = .raise) {sources : List Source}
    (hdistinct : (sources.map Prod.fst).Nodup)
    (hunsigned : ∀ source ∈ sources, ∀ bars, barsOf? known source = some bars →
      ∀ bar ∈ bars, bar.day.IsUnsigned)
    (hwritable : archive.isReadOnly = false) (h : archive.store.IsContiguous calendar)
    (hlater : later.store.IsContiguous calendar) {position position' : Nat}
    {summary summary' : WriteSummary}
    (hrows : ∀ source ∈ sources, later.store.assetRows source.1 =
      (writeFrom calendar first known sources position summary archive).archive.store.assetRows
        source.1) :
    (writeFrom calendar second known sources position' summary' later).archive = later := by
  induction sources generalizing archive position position' summary summary' with
  | nil => rfl
  | cons source rest ih =>
    obtain ⟨hsource, hdistinct⟩ := List.nodup_cons.1 hdistinct
    obtain ⟨hown, hunsigned⟩ := List.forall_mem_cons.1 hunsigned
    have hnext : (writeSource calendar first known source archive).2.store.IsContiguous calendar :=
      isContiguous_writeSource h hcalendar hown
    have hextends := extends_writeSource calendar first known source archive
    rw [writeFrom_cons] at hrows ⊢
    cases hwrite : writeSource calendar first known source archive with
    | mk result next =>
    rw [hwrite] at hrows hnext hextends
    cases result with
    | error error =>
      -- The first batch ended here, and so does the second.
      obtain ⟨hfirst, hsame⟩ := eq_raise_of_error hwritable h.unsigned (congrArg Prod.fst hwrite)
      rw [hwrite] at hsame
      subst hfirst hsame
      rw [hraise rfl, writeSource_again_of_error hwritable (congrArg Prod.fst hwrite)
        (hrows source List.mem_cons_self)]
    | ok outcome =>
      obtain ⟨hfound, hrows⟩ := List.forall_mem_cons.1 hrows
      -- No later table is of this asset, so its rows are those that its own write left.
      have hframe : (writeFrom calendar first known rest (position + 1) (summary.record outcome)
          next).archive.store.assetRows source.1 = next.store.assetRows source.1 :=
        assetRows_writeFrom_of_ne (fun other hother heq ↦
          hsource (List.mem_map.2 ⟨other, hother, heq.symm⟩)) next (position + 1) _
      have hagain : (writeSource calendar second known source later).2 = later := by
        refine writeSource_again h hlater hcalendar hown (congrArg Prod.fst hwrite) ?_
        rw [hwrite]
        exact hfound.trans hframe
      cases hsecond : writeSource calendar second known source later with
      | mk result later' =>
      rw [hsecond] at hagain
      subst hagain
      cases result with
      | error error => rfl
      | ok outcome =>
        exact ih hdistinct hunsigned (hextends.isReadOnly_eq.trans hwritable) hnext hrows

end Writer

end DailyBars
