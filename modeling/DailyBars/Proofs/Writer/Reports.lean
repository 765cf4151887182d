import DailyBars.Proofs.Table.Bars
import DailyBars.Proofs.Writer.Contiguous
import Mathlib

/-!
# What a report says is stored

A batch reports the rows that it stored of each table, in its summary and while it is written; a
batch that fails has no summary, but what it reported before stays true. A report is about one
table, written to **what the tables before it left** (`Writer.exists_of_reports`).

A write that reports as many rows as there are bars has stored all of them: it stores no bar twice,
so what it has stored is a part of the bars that is as long as the whole
(`Writer.mem_rows_of_rowsWritten`).
-/

namespace DailyBars

namespace Writer

variable {calendar : Calendar} {behavior : Behavior} {known : Option (List AssetId)}
  {asset : AssetId} {bars : List Bar} {archive : Archive} {outcome : AssetOutcome}

/-! ### Reports of a single write -/

theorem exists_accepted
    (h : (writeBars calendar behavior asset bars archive).1 = .ok outcome) :
    ∃ accepted, outcome.rowsWritten = accepted.length ∧
      Accepts calendar asset bars (archive.store.assetBounds? asset) accepted ∧
      (writeBars calendar behavior asset bars archive).2.store.rows.Perm
        (archive.store.rows ++ accepted.map Bar.stored) := by
  obtain ⟨plan, hplan, rfl, hstore⟩ := exists_plan_of_ok h
  exact ⟨plan.accepted, rfl, accepts_of_planBars hplan, Store.rows_perm_of_append? hstore⟩

/-- **Where as many rows are written as there are bars, every bar is stored.** -/
theorem mem_rows_of_rowsWritten (hcontiguous : archive.store.IsContiguous calendar)
    (hcalendar : calendar.IsLawfulOn Day.IsUnsigned) (hunsigned : ∀ bar ∈ bars, bar.day.IsUnsigned)
    (h : (writeBars calendar behavior asset bars archive).1 = .ok outcome)
    (hrows : outcome.rowsWritten = bars.length) {bar : Bar} (hbar : bar ∈ bars) :
    bar.stored ∈ (writeBars calendar behavior asset bars archive).2.store.rows := by
  obtain ⟨accepted, hlength, haccepts, hperm⟩ := exists_accepted h
  have hstored : (writeBars calendar behavior asset bars archive).2.store.IsContiguous calendar :=
    isContiguous_writeBars hcontiguous hcalendar hunsigned
  have hkeys := hstored.nodup_keys hcalendar
  -- No key is stored twice, so no bar was accepted twice.
  have hnodup : accepted.Nodup := by
    rw [(hperm.map Bar.key).nodup_iff, List.map_append] at hkeys
    exact ((List.nodup_append.1 hkeys).2.1.of_map _).of_map _
  have hall : accepted.Perm bars :=
    (hnodup.subperm fun bar hbar ↦ (haccepts.mem hbar).1).perm_of_length_le (by omega)
  exact hperm.mem_iff.2
    (List.mem_append_right _ (List.mem_map_of_mem (hall.mem_iff.2 hbar)))

/-! ### Reports of a table -/

theorem rowsWritten_eq_zero_of_none {source : Source} (hbars : barsOf? known source = none)
    (h : (writeSource calendar behavior known source archive).1 = .ok outcome) :
    outcome.rowsWritten = 0 := by
  obtain ⟨result, hresult, hzero⟩ := exists_writeSource_of_none hbars
  rw [hresult] at h
  exact hzero outcome h

/-- As many rows are there in addition as are reported. -/
theorem rowCount_writeSource {source : Source}
    (h : (writeSource calendar behavior known source archive).1 = .ok outcome) :
    (writeSource calendar behavior known source archive).2.store.rowCount =
      archive.store.rowCount + outcome.rowsWritten := by
  cases hbars : barsOf? known source with
  | none => rw [writeSource_of_none hbars, rowsWritten_eq_zero_of_none hbars h, Nat.add_zero]
  | some bars =>
    rw [writeSource_of_some hbars] at h ⊢
    obtain ⟨accepted, hrows, -, hperm⟩ := exists_accepted h
    rw [Store.rowCount, hperm.length_eq, List.length_append, List.length_map, hrows, Store.rowCount]

/-- **Where as many rows are written as a table has, every row is stored.** -/
theorem exists_stored_isRow (hcontiguous : archive.store.IsContiguous calendar)
    (hcalendar : calendar.IsLawfulOn Day.IsUnsigned) {table : Table}
    (hunsigned : ∀ bars, barsOf? known (asset, .ok table) = some bars →
      ∀ bar ∈ bars, bar.day.IsUnsigned)
    (h : (writeSource calendar behavior known (asset, .ok table) archive).1 = .ok outcome)
    (hrows : outcome.rowsWritten = table.height) {row : Nat} (hrow : row < table.height) :
    ∃ bar, table.IsRow asset row bar ∧ bar.stored ∈
      (writeSource calendar behavior known (asset, .ok table) archive).2.store.rows := by
  cases hbars : barsOf? known (asset, .ok table) with
  | none =>
    have hzero := rowsWritten_eq_zero_of_none hbars h
    omega
  | some bars =>
    rw [writeSource_of_some hbars] at h ⊢
    have hfound := bars_of_barsOf? hbars
    obtain ⟨bar, hbar, hisRow⟩ := Table.exists_isRow hfound hrow
    exact ⟨bar, hisRow, mem_rows_of_rowsWritten hcontiguous hcalendar (hunsigned bars hbars) h
      (hrows.trans (Table.length_bars hfound).symm) hbar⟩

/-! ### Reports of a batch -/

/-- A batch says of the table at a position what became of it, in its summary or on the way. -/
def BatchResult.Reports (batch : BatchResult) (position : Nat) (outcome : AssetOutcome) : Prop :=
  (∃ summary, batch.result = .ok summary ∧ summary.outcomes[position]? = some outcome) ∨
    .completed position outcome ∈ batch.events

variable {sources : List Source} {position : Nat} {summary : WriteSummary}

theorem completed_mem_after {batch : BatchResult} {other : Nat} {own : AssetOutcome} :
    .completed other outcome ∈
        (batch.after [.started asset position, .completed position own]).events ↔
      other = position ∧ outcome = own ∨ .completed other outcome ∈ batch.events := by
  simp [BatchResult.after]

/-- What a summary says stays at its place in every later one. -/
theorem prefix_outcomes {final : WriteSummary}
    (h : (writeFrom calendar behavior known sources position summary archive).result = .ok final) :
    summary.outcomes <+: final.outcomes := by
  induction sources generalizing position summary archive with
  | nil =>
    cases h
    exact List.prefix_refl _
  | cons source rest ih =>
    rw [writeFrom_cons] at h
    split at h
    · cases h
    · exact (List.prefix_append _ _).trans (ih h)

/-- The rest of a batch only reports its own positions. -/
theorem le_of_completed_mem {other : Nat} (h : .completed other outcome ∈
      (writeFrom calendar behavior known sources position summary archive).events) :
    position ≤ other := by
  induction sources generalizing position summary archive with
  | nil => simp [writeFrom] at h
  | cons source rest ih =>
    rw [writeFrom_cons] at h
    split at h
    · simp at h
    · rcases completed_mem_after.1 h with ⟨rfl, -⟩ | hlater
      · exact Nat.le_refl _
      · exact Nat.le_of_succ_le (ih hlater)

/-- A batch says of its first table what became of it, since the rest only reports later ones. -/
theorem eq_of_reports_first {own : AssetOutcome} (hposition : summary.outcomes.length = position)
    (h : ((writeFrom calendar behavior known sources (position + 1) (summary.record own)
      archive).after [.started asset position, .completed position own]).Reports position outcome) :
    own = outcome := by
  rcases h with ⟨final, hfinal, hget⟩ | hmem
  · obtain ⟨later, hlater⟩ := prefix_outcomes hfinal
    rw [← hlater] at hget
    simpa [WriteSummary.record, hposition] using hget
  · rcases completed_mem_after.1 hmem with ⟨-, heq⟩ | hlater
    · exact heq.symm
    · exact absurd (le_of_completed_mem hlater) (Nat.not_succ_le_self position)

/-- What a batch says of other tables, the rest of it says. -/
theorem reports_of_after {batch : BatchResult} {own : AssetOutcome} {other : Nat}
    (hother : other ≠ position)
    (h : (batch.after [.started asset position, .completed position own]).Reports other outcome) :
    batch.Reports other outcome := by
  rcases h with hsummary | hmem
  · exact Or.inl hsummary
  · rcases completed_mem_after.1 hmem with ⟨heq, -⟩ | hlater
    · exact absurd heq hother
    · exact Or.inr hlater

/-- **A report of a table is about its own write**, to what the tables before it left; and what that
write left is still there in the end. -/
theorem exists_of_reports_writeFrom (hposition : summary.outcomes.length = position) {k : Nat}
    (h : (writeFrom calendar behavior known sources position summary archive).Reports
      (position + k) outcome) :
    ∃ source earlier, sources[k]? = some source ∧
      earlier = (writeFrom calendar behavior known (sources.take k) position summary
        archive).archive ∧
      (writeSource calendar behavior known source earlier).1 = .ok outcome ∧
      (writeSource calendar behavior known source earlier).2.Extends
        (writeFrom calendar behavior known sources position summary archive).archive := by
  induction sources generalizing position summary archive k with
  | nil =>
    rcases h with ⟨final, hfinal, hget⟩ | hmem
    · cases hfinal
      have hlt := (List.getElem?_eq_some_iff.1 hget).1
      omega
    · simp [writeFrom] at hmem
  | cons source rest ih =>
    rcases hsource : writeSource calendar behavior known source archive with ⟨error | own, next⟩
    · rw [writeFrom_cons, hsource] at h
      rcases h with ⟨final, hfinal, -⟩ | hmem
      · cases hfinal
      · simp at hmem
    have hbatch : writeFrom calendar behavior known (source :: rest) position summary archive =
        (writeFrom calendar behavior known rest (position + 1) (summary.record own) next).after
          [.started source.1 position, .completed position own] := by
      rw [writeFrom_cons, hsource]
    rw [hbatch] at h ⊢
    cases k with
    | zero =>
      refine ⟨source, archive, rfl, rfl, by rw [hsource, eq_of_reports_first hposition h], ?_⟩
      rw [hsource]
      exact extends_writeFrom calendar behavior known rest (position + 1) (summary.record own) next
    | succ k =>
      have hlength : (summary.record own).outcomes.length = position + 1 := by
        simp [WriteSummary.record, hposition]
      have hindex : position + (k + 1) = position + 1 + k := by omega
      rw [hindex] at h
      obtain ⟨found, earlier, hfound, hearlier, hresult, hextends⟩ :=
        ih hlength (reports_of_after (by omega) h)
      refine ⟨found, earlier, hfound, ?_, hresult, hextends⟩
      rw [List.take_succ_cons, writeFrom_cons, hsource]
      exact hearlier

theorem exists_of_reports
    (h : (writeTables calendar behavior known sources archive).Reports position outcome) :
    ∃ source earlier, sources[position]? = some source ∧
      earlier = (writeTables calendar behavior known (sources.take position) archive).archive ∧
      (writeSource calendar behavior known source earlier).1 = .ok outcome ∧
      (writeSource calendar behavior known source earlier).2.Extends
        (writeTables calendar behavior known sources archive).archive :=
  exists_of_reports_writeFrom (List.length_nil : WriteSummary.empty.outcomes.length = 0)
    (by rwa [Nat.zero_add])

/-- **The rows that a batch reports are there when it ends**, in addition to those before it. -/
theorem rowCount_add_le_of_reports
    (h : (writeTables calendar behavior known sources archive).Reports position outcome) :
    archive.store.rowCount + outcome.rowsWritten ≤
      (writeTables calendar behavior known sources archive).archive.store.rowCount := by
  obtain ⟨source, earlier, -, hearlier, hresult, hextends⟩ := exists_of_reports h
  have hbefore : archive.Extends earlier := by
    rw [hearlier]
    exact extends_writeFrom calendar behavior known _ 0 .empty archive
  calc archive.store.rowCount + outcome.rowsWritten
      ≤ earlier.store.rowCount + outcome.rowsWritten :=
        Nat.add_le_add_right hbefore.rows.length_le _
    _ = (writeSource calendar behavior known source earlier).2.store.rowCount :=
        (rowCount_writeSource hresult).symm
    _ ≤ _ := hextends.rows.length_le

end Writer

end DailyBars
