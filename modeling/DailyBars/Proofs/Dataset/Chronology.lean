import DailyBars.Proofs.Dataset.Runs
import DailyBars.Proofs.Store.Chronology
import DailyBars.Proofs.Writer.Chronology
import DailyBars.Proofs.Writer.Edges
import Mathlib

/-!
# The order of days is that of their texts

Days may have any year that a day can have, and a store orders them by their texts. So what it says
of first and last days, and the order in which it lists rows, is right for exactly those days
**whose texts are in the order of the days** (`DailyBars.isChronological_iff`): any two days that
are not are stored in the wrong order by a single write, under a calendar that has no other
sessions.

The years 0 to 9999 are in order (`Day.orderedTexts_isUnsigned`); they and the year 10000 are not.
There the bounds of an asset change places, and a stored day is taken for one before the stored span
and stored again (`DailyBars.exists_store_not_chronological`).
-/

namespace DailyBars

/-! ### Days with texts in order -/

theorem Call.ascends_perform {p : Day → Prop} (htexts : Day.OrderedTexts p) {calendar : Calendar}
    {archive : Archive} {call : Call} (hdays : call.HasDays p) (h : archive.store.Ascends p) :
    (call.perform calendar archive).store.Ascends p :=
  Call.perform_induction (motive := fun store ↦ store.Ascends p) hdays
    (fun _ _ _ _ hbars harchive ↦ Writer.ascends_writeBars htexts harchive hbars) h

/-- **A run on days with texts in order leaves a chronological store**, under any calendar. -/
theorem isChronological_run {p : Day → Prop} (htexts : Day.OrderedTexts p) (calendar : Calendar)
    {calls : List Call} (hcalls : ∀ call ∈ calls, call.HasDays p) :
    (run calendar calls .empty).store.IsChronological := by
  have hascends : (run calendar calls .empty).store.Ascends p :=
    run_induction (motive := fun archive ↦ archive.store.Ascends p)
      (fun call hcall _ ↦ Call.ascends_perform htexts (hcalls call hcall)) (Store.ascends_empty p)
  exact hascends.isChronological htexts

/-! ### Two days -/

/-- The calendar of two sessions. -/
def twoSessions (a b : Day) : Calendar :=
  .ofSessions "XNYS" (DayList.ofList [a, b])

/-- Bars on two days. -/
def twoBars (a b : Day) : List Bar :=
  [⟨⟨7⟩, a, .zero, .zero, .zero, .zero, 10⟩, ⟨⟨7⟩, b, .zero, .zero, .zero, .zero, 20⟩]

theorem isLawful_twoSessions (a b : Day) : (twoSessions a b).IsLawful :=
  Calendar.isLawful_ofSessions _ _

theorem isRun_twoSessions {a b : Day} (h : a < b) : (twoSessions a b).IsRun [a, b] := by
  have hascending : [a, b].Pairwise (· < ·) := List.pairwise_pair.2 h
  intro first last hfirst hlast
  obtain rfl : a = first := Option.some_inj.1 hfirst
  obtain rfl : b = last := Option.some_inj.1 hlast
  refine List.Pairwise.eq_of_mem_iff hascending ((isLawful_twoSessions a b).ascending a b)
    fun day ↦ ?_
  rw [(isLawful_twoSessions a b).mem_iff]
  show _ ↔ _ ∧ _ ∧ (DayList.ofList [a, b]).contains day = true
  rw [DayList.contains_iff, DayList.mem_ofList]
  exact ⟨fun hday ↦ ⟨Day.head_le_of_ascending hascending rfl hday,
    Day.le_getLast_of_ascending hascending rfl hday, hday⟩, fun hday ↦ hday.2.2⟩

/-- A write after a run adds what its plan accepts, if these are numbers. -/
theorem append?_run_write {calendar : Calendar} (calls : List Call) {behavior : Behavior}
    {asset : AssetId} {bars : List Bar} {plan : Writer.Plan}
    (hplan : Writer.planBars calendar behavior
      ((run calendar calls .empty).store.assetBounds? asset) asset bars = .ok plan)
    (hnumbers : ∀ bar ∈ plan.accepted, bar.hasNaN = false) :
    (run calendar calls .empty).store.append? plan.accepted =
      some (run calendar (calls ++ [.write behavior asset bars]) .empty).store := by
  obtain ⟨next, hwritten, hnext, -⟩ := Writer.exists_writeBars_eq
    (extends_run calendar calls .empty).isReadOnly_eq hplan hnumbers
  have hrun : run calendar (calls ++ [.write behavior asset bars]) .empty = next := by
    rw [run_append]
    exact congrArg Prod.snd hwritten
  rw [hrun, hnext]

/-- The store after both sessions were written. -/
def storeOfTwo (a b : Day) : Store :=
  (run (twoSessions a b) [.write .raise ⟨7⟩ (twoBars a b)] .empty).store

/-- Under their calendar both sessions are stored, whatever their years are. -/
theorem rows_storeOfTwo_perm {a b : Day} (h : a < b) :
    (storeOfTwo a b).rows.Perm (twoBars a b) := by
  have hplan : Writer.planBars (twoSessions a b) .raise (Store.empty.assetBounds? ⟨7⟩) ⟨7⟩
      (twoBars a b) = .ok ⟨twoBars a b, []⟩ :=
    Writer.planBars_initial ((isLawful_twoSessions a b).isLawfulOn fun _ ↦ True)
      (by simp [twoBars]) (fun _ _ ↦ trivial) (isRun_twoSessions h)
  exact Store.rows_perm_of_append? (append?_run_write [] hplan
    (List.forall_mem_cons.2 ⟨rfl, List.forall_mem_singleton.2 rfl⟩))

theorem assetRows_storeOfTwo {a b : Day} (h : a < b) :
    (storeOfTwo a b).assetRows ⟨7⟩ = (storeOfTwo a b).rows := by
  refine List.filter_eq_self.2 fun bar hbar ↦ decide_eq_true ?_
  have hasset : ∀ bar ∈ twoBars a b, bar.asset = ⟨7⟩ := by simp [twoBars]
  exact hasset bar ((rows_storeOfTwo_perm h).mem_iff.1 hbar)

/-- **The rows are in the order of the texts**, which need not be that of the days. -/
theorem rows_storeOfTwo_of_textLe {a b : Day} (h : a < b) (htext : Day.textLe b a = true) :
    (storeOfTwo a b).rows = (twoBars a b).reverse := by
  have hperm : ((storeOfTwo a b).assetRows ⟨7⟩).Perm (twoBars a b).reverse := by
    rw [assetRows_storeOfTwo h]
    exact (rows_storeOfTwo_perm h).trans (List.reverse_perm _).symm
  have hnodup : ((twoBars a b).map Bar.day).Nodup :=
    (List.pairwise_pair.2 h).nodup
  rw [← assetRows_storeOfTwo h]
  refine Store.assetRows_eq_of_ordered hperm ?_ (List.pairwise_pair.2 htext)
  rw [List.map_reverse]
  exact List.nodup_reverse.2 hnodup

/-- **The order of days is that of their texts**: the stores of all runs on certain days are
chronological exactly if the texts of these days are in the order of the days. -/
theorem isChronological_iff (p : Day → Prop) :
    Day.OrderedTexts p ↔ ∀ calendar : Calendar, calendar.IsLawful → ∀ calls : List Call,
      (∀ call ∈ calls, call.HasDays p) → (run calendar calls .empty).store.IsChronological := by
  constructor
  · intro htexts calendar _ calls hcalls
    exact isChronological_run htexts calendar hcalls
  · intro h a b ha hb hle
    by_cases heq : a = b
    · rw [heq]
      simpa using Day.textLe_total b b
    have hlt : a < b := lt_of_le_of_ne hle heq
    have hstore : (storeOfTwo a b).IsChronological := h (twoSessions a b)
      (isLawful_twoSessions a b) [.write .raise ⟨7⟩ (twoBars a b)]
      (List.forall_mem_singleton.2 (by simp [twoBars, Call.HasDays, ha, hb]))
    -- The rows are in the order of the texts in any case, and here in that of the days as well.
    have hdays := List.Pairwise.eq_of_mem_iff (Store.rows_ascending_iff.1 hstore.rows ⟨7⟩)
      (List.pairwise_pair.2 hlt) fun day ↦ by
        rw [assetRows_storeOfTwo hlt]
        exact ((rows_storeOfTwo_perm hlt).map Bar.day).mem_iff
    have hordered := (storeOfTwo a b).days_ordered ⟨7⟩
    rw [hdays] at hordered
    exact (List.pairwise_cons.1 hordered).1 b List.mem_cons_self

namespace Sample

/-- The last day of the year 9999. -/
def lastUnsigned : Day := ⟨2932896, by decide⟩

/-- The first day of the year 10000, which is a day later. -/
def firstSigned : Day := ⟨2932897, by decide⟩

/-- Another bar on the last day of the year 9999. -/
def again : List Bar :=
  [⟨⟨7⟩, lastUnsigned, .zero, .zero, .zero, .zero, 30⟩]

/-- The two days are written, and then the first of them again. -/
def acrossTheYears : List Call :=
  [.write .raise ⟨7⟩ (twoBars lastUnsigned firstSigned), .write .raise ⟨7⟩ again]

end Sample

/-- **Across the years 9999 and 10000 a store is not chronological**, and a day is stored twice. -/
theorem exists_store_not_chronological :
    let calendar := twoSessions Sample.lastUnsigned Sample.firstSigned
    let store := storeOfTwo Sample.lastUnsigned Sample.firstSigned
    calendar.IsLawful ∧ Sample.lastUnsigned < Sample.firstSigned ∧
      Sample.lastUnsigned.text = "9999-12-31" ∧ Sample.firstSigned.text = "+10000-01-01" ∧
      store.assetBounds? ⟨7⟩ = some (Sample.firstSigned, Sample.lastUnsigned) ∧
      store.dayBounds? = some (Sample.firstSigned, Sample.lastUnsigned) ∧
      store.spans = [⟨⟨7⟩, 2, Sample.firstSigned, Sample.lastUnsigned⟩] ∧
      store.column .volume = [.ofInt 20, .ofInt 10] ∧
      store.assetColumn ⟨7⟩ .volume 0 2 = [.ofInt 20, .ofInt 10] ∧ ¬store.IsChronological ∧
      ¬((run calendar Sample.acrossTheYears .empty).store.rows.map Bar.key).Nodup := by
  intro calendar store
  have hlt : Sample.lastUnsigned < Sample.firstSigned := by decide
  have hrows : store.rows = (twoBars Sample.lastUnsigned Sample.firstSigned).reverse :=
    rows_storeOfTwo_of_textLe hlt (by cbv)
  have hasset : store.assetRows ⟨7⟩ = store.rows := assetRows_storeOfTwo hlt
  have hbounds : store.assetBounds? ⟨7⟩ = some (Sample.firstSigned, Sample.lastUnsigned) := by
    rw [Store.assetBounds?, hasset, hrows]
    cbv
  have hdayBounds : store.dayBounds? = some (Sample.firstSigned, Sample.lastUnsigned) := by
    rw [Store.dayBounds?, hrows]
    cbv
  have hspans : store.spans = [⟨⟨7⟩, 2, Sample.firstSigned, Sample.lastUnsigned⟩] := by
    rw [Store.spans, hrows]
    cbv
  have hcolumn : store.column .volume = [.ofInt 20, .ofInt 10] := by
    rw [Store.column, hrows]
    cbv
  have hassetColumn : store.assetColumn ⟨7⟩ .volume 0 2 = [.ofInt 20, .ofInt 10] := by
    rw [Store.assetColumn, hasset, hrows]
    cbv
  refine ⟨isLawful_twoSessions _ _, hlt, by cbv, by cbv, hbounds, hdayBounds, hspans, hcolumn,
    hassetColumn, fun h ↦ ?_, fun h ↦ ?_⟩
  · obtain ⟨-, hlast, hfirst, -⟩ := h.assetBounds _ _ _ hbounds
    exact absurd (hfirst _ hlast) (by decide)
  · have hplan : Writer.planBars calendar .raise (store.assetBounds? ⟨7⟩) ⟨7⟩ Sample.again =
        .ok ⟨Sample.again, []⟩ := by
      rw [hbounds]
      cbv
    have hperm : ((run calendar Sample.acrossTheYears .empty).store.rows.map Bar.key).Perm
        ((store.rows ++ Sample.again.map Bar.stored).map Bar.key) :=
      (Store.rows_perm_of_append?
        (append?_run_write _ hplan (List.forall_mem_singleton.2 rfl))).map Bar.key
    rw [hrows] at hperm
    exact absurd (hperm.nodup_iff.1 h) (by decide)

end DailyBars
