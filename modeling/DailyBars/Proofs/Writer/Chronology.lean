import DailyBars.Proofs.Store.Assets
import DailyBars.Proofs.Store.Chronology
import DailyBars.Proofs.Writer.Executions
import Mathlib

/-!
# Writes keep days ascending

What a plan accepts lies before the first stored day of the asset and after the last. So a write
keeps the days of each asset ascending, **where the bounds that the store gives are the first and
the last of these days** and the rows are put back in their order: where the texts of all days are
in the order of the days. Neither needs the calendar to be lawful, nor what is accepted to be
consistent with it.
-/

namespace DailyBars.Writer

variable {calendar : Calendar} {behavior : Behavior} {asset : AssetId} {bars accepted : List Bar}

/-- The accepted bars and the stored rows of an asset can be put in the order of their days. -/
theorem Accepts.exists_perm {rows : List Bar} {bounds : Option (Day × Day)}
    (h : Accepts calendar asset bars bounds accepted)
    (hrows : (rows.map Bar.day).Pairwise (· < ·)) (hnone : bounds = none → rows = [])
    (hsome : ∀ first last, bounds = some (first, last) →
      (rows.map Bar.day).head? = some first ∧ (rows.map Bar.day).getLast? = some last) :
    ∃ target : List Bar, (rows ++ accepted.map Bar.stored).Perm target ∧
      (target.map Bar.day).Pairwise (· < ·) := by
  cases h with
  | nothing => exact ⟨rows, by rw [List.map_nil, List.append_nil], hrows⟩
  | initial hbars _ =>
    refine ⟨bars.map Bar.stored, ?_, ?_⟩
    · rw [hnone rfl, List.nil_append]
    · rw [Bar.map_day_stored]
      exact hbars.ascending
  | @extension first last before after hbars hbefore hafter =>
    obtain ⟨hfirst, hlast⟩ := hsome first last rfl
    have hbeforeSub := hbefore.sublist.trans (barsBefore_sublist first bars)
    have hafterSub := hafter.sublist.trans (barsAfter_sublist last bars)
    have hlow : ∀ day ∈ before.map Bar.day, day < first := List.forall_mem_map.2 fun bar hbar ↦
      (mem_barsBefore (hbefore.sublist.mem hbar)).2
    have hhigh : ∀ day ∈ after.map Bar.day, last < day := List.forall_mem_map.2 fun bar hbar ↦
      (mem_barsAfter hbars.ascending (hafter.sublist.mem hbar)).2
    refine ⟨before.map Bar.stored ++ rows ++ after.map Bar.stored, ?_, ?_⟩
    · rw [List.map_append, ← List.append_assoc]
      exact List.perm_append_comm.append_right _
    · simp only [List.map_append, Bar.map_day_stored]
      exact Day.ascending_surround (hbars.sublist hbeforeSub).ascending hrows
        (hbars.sublist hafterSub).ascending hfirst hlast hlow hhigh

/-- **A write keeps the days of each asset ascending**, where all days have their texts in order. -/
theorem ascends_writeBars {p : Day → Prop} (htexts : Day.OrderedTexts p) {archive : Archive}
    (h : archive.store.Ascends p) (hbars : ∀ bar ∈ bars, p bar.day) :
    (writeBars calendar behavior asset bars archive).2.store.Ascends p where
  days := days_writeBars h.days hbars
  ascending other := by
    by_cases hother : other ≠ asset
    · rw [assetRows_writeBars_of_ne hother]
      exact h.ascending other
    obtain rfl : other = asset := not_not.1 hother
    rcases writeBars_store calendar behavior other bars archive with hsame | hstored
    · rw [hsame]
      exact h.ascending other
    obtain ⟨accepted, store, -, haccepts, hstore, hnext⟩ := hstored
    obtain ⟨target, hperm, htarget⟩ := haccepts.exists_perm (h.ascending other)
      Store.assetBounds?_eq_none_iff.1 fun first last ↦ Store.assetBounds?_eq_some_iff.1
    have htargetDays : ∀ bar ∈ target, p bar.day := by
      intro bar hbar
      rcases List.mem_append.1 (hperm.mem_iff.2 hbar) with hold | hnew
      · exact h.days bar (Store.mem_assetRows.1 hold).1
      · obtain ⟨given, hgiven, rfl⟩ := List.mem_map.1 hnew
        exact hbars given (haccepts.mem hgiven).1
    have hupdate := (archive.store.isUpdate_self other).append hstore
      (fun bar hbar ↦ (haccepts.mem hbar).2) htexts hperm htargetDays htarget
    rw [hnext, hupdate.rows_eq]
    exact htarget

end DailyBars.Writer
