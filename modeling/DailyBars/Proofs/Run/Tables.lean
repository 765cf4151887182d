import DailyBars.Proofs.Run.Ingest
import DailyBars.Proofs.SymbolMap.Numbering
import DailyBars.Proofs.Writer.Accounting
import DailyBars.Proofs.Writer.ByAsset
import Mathlib

/-!
# The tables that an ingest writes

The tables of a directory come to the writer by the numbers of their symbols. **The writer gets one
table for each number**: the last one, where several tables of the directory have the same
(`IngestRun.mem_sources_iff`). Two files whose names agree up to the case of their letters, or up to
the ending, have the same symbol, and a map may give one number to two symbols. The tables before
the last one are written nowhere and are in no report (`IngestRun.writes_last_tables`).
-/

namespace DailyBars

namespace Writer

variable {calendar : Calendar} {behavior : Behavior} {known : Option (List AssetId)}
  {archive : Archive}

/-- The outcome of a table is that of its asset. -/
theorem asset_of_writeSource {source : Source} {outcome : AssetOutcome}
    (h : (writeSource calendar behavior known source archive).1 = .ok outcome) :
    outcome.asset = source.1 := by
  have hdrop : ∀ {rows : Nat} {error : StoreError},
      (drop behavior .table rows error).map (AssetOutcome.written source.1 0) = .ok outcome →
      outcome.asset = source.1 := by
    intro rows error h
    obtain ⟨dropped, -, rfl⟩ := Result.map_eq_ok_iff.1 h
    rfl
  cases hbars : barsOf? known source with
  | some bars =>
    rw [writeSource_of_some hbars] at h
    obtain ⟨plan, -, rfl, -⟩ := exists_plan_of_ok h
    rfl
  | none =>
    obtain ⟨asset, table⟩ := source
    rw [barsOf?] at hbars
    rw [writeSource] at h
    split at hbars
    · rename_i hknown
      rw [if_pos hknown] at h
      unfold writeTable at h
      cases table with
      | error error => exact hdrop h
      | ok table =>
        dsimp only at h hbars
        cases htable : table.bars asset with
        | error error =>
          rw [htable] at h
          exact hdrop h
        | ok bars =>
          rw [htable] at hbars
          cases hbars
    · rename_i hknown
      rw [if_neg hknown] at h
      cases h
      rfl

/-- **A batch that comes to its end has one outcome for each of its tables**, in their order. -/
theorem map_asset_of_writeFrom {sources : List Source} {position : Nat}
    {summary final : WriteSummary}
    (h : (writeFrom calendar behavior known sources position summary archive).result = .ok final) :
    final.outcomes.map AssetOutcome.asset =
      summary.outcomes.map AssetOutcome.asset ++ sources.map Prod.fst := by
  induction sources generalizing archive position summary with
  | nil =>
    cases h
    exact (List.append_nil _).symm
  | cons source rest ih =>
    rw [writeFrom_cons] at h
    split at h
    · cases h
    · rename_i outcome next hwritten
      have hasset : outcome.asset = source.1 :=
        asset_of_writeSource (congrArg Prod.fst hwritten)
      rw [ih h, WriteSummary.record, List.map_append, List.map_singleton, hasset,
        List.append_assoc]
      rfl

end Writer

namespace IngestRun

variable {ingest : IngestRun} {path : String} {files saved made : Files} {found : Found}
  {writer : Writer} {opened : OpenStore}

/-- The paths of the tables with the numbers of their symbols. -/
def Found.numberedPaths (found : Found) (tables : List (String × String)) :
    List (AssetId × String) :=
  tables.map fun table ↦ ((found.numbers.get? table.1).getD default, table.2)

theorem Found.get?_numbers (found : Found) :
    found.assigned.map (·.1) = found.tables.map (·.1) ∧
      ∀ entry ∈ found.assigned, found.numbers.get? entry.1 = some entry.2 :=
  have hassigns := SymbolMap.assigns_of_assign? found.assign?_eq
  ⟨hassigns.map_fst, hassigns.get?_of_mem⟩

/-- What is assigned to the tables are the numbers that the map has then. -/
theorem Found.pathsByAsset_eq (found : Found) :
    Run.pathsByAsset found.assigned found.tables =
      Writer.byAsset (found.numberedPaths found.tables) := by
  obtain ⟨hsymbols, hnumbers⟩ := found.get?_numbers
  generalize found.assigned = assigned at *
  generalize found.tables = tables at *
  refine congrArg Writer.byAsset ?_
  induction tables generalizing assigned with
  | nil => rw [List.zip_nil_right]; rfl
  | cons table rest ih =>
    cases assigned with
    | nil => cases hsymbols
    | cons entry assigned =>
      obtain ⟨hsymbol, hrest⟩ := List.cons.inj hsymbols
      obtain ⟨hnumber, hothers⟩ := List.forall_mem_cons.1 hnumbers
      replace hsymbol : entry.1 = table.1 := hsymbol
      rw [hsymbol] at hnumber
      rw [List.zip_cons_cons, List.map_cons, ih assigned hothers hrest, numberedPaths,
        numberedPaths, List.map_cons, hnumber]
      rfl

/-- Every table has a number. -/
theorem Found.exists_number {table : String × String} (h : table ∈ found.tables) :
    ∃ asset, found.numbers.get? table.1 = some asset := by
  obtain ⟨hsymbols, hnumbers⟩ := found.get?_numbers
  have hmem : table.1 ∈ found.tables.map (·.1) := List.mem_map_of_mem h
  rw [← hsymbols] at hmem
  obtain ⟨entry, hentry, heq⟩ := List.mem_map.1 hmem
  exact ⟨entry.2, heq ▸ hnumbers entry hentry⟩

theorem Found.getD_number_eq_iff {table : String × String} (h : table ∈ found.tables)
    (asset : AssetId) :
    (found.numbers.get? table.1).getD default = asset ↔
      found.numbers.get? table.1 = some asset := by
  obtain ⟨number, hnumber⟩ := exists_number h
  rw [hnumber, Option.getD_some, Option.some_inj]

/-- **The writer gets the last table of each number.** -/
theorem mem_sources_iff {asset : AssetId} {source : Except StoreError Table} :
    (asset, source) ∈ ingest.sources files found ↔
      ∃ before symbol tablePath after,
        found.tables = before ++ (symbol, tablePath) :: after ∧
        found.numbers.get? symbol = some asset ∧
        (∀ table ∈ after, found.numbers.get? table.1 ≠ some asset) ∧
        source = TableFile.read ingest.parquet files tablePath := by
  rw [sources, found.pathsByAsset_eq, List.mem_map]
  have hnumber := fun table (h : table ∈ found.tables) ↦ Found.getD_number_eq_iff h asset
  constructor
  · rintro ⟨⟨asset, tablePath⟩, hmem, heq⟩
    cases heq
    obtain ⟨before, after, hsplit, hafter⟩ := Writer.mem_byAsset_iff.1 hmem
    obtain ⟨before, rest, htables, rfl, hrest⟩ := List.map_eq_append_iff.1 hsplit
    obtain ⟨⟨symbol, tablePath⟩, after, rfl, hown, rfl⟩ := List.map_eq_cons_iff.1 hrest
    rw [htables] at hnumber
    obtain ⟨hasset, rfl⟩ := Prod.mk.inj hown
    refine ⟨before, symbol, tablePath, after, htables, (hnumber (symbol, tablePath) ?_).1 hasset,
      fun table htable hsame ↦ ?_, rfl⟩
    · exact List.mem_append_right before List.mem_cons_self
    · exact hafter _ (List.mem_map_of_mem htable) <| (hnumber table
        (List.mem_append_right before (List.mem_cons_of_mem _ htable))).2 hsame
  · rintro ⟨before, symbol, tablePath, after, htables, hasset, hafter, rfl⟩
    rw [htables] at hnumber ⊢
    refine ⟨(asset, tablePath), Writer.mem_byAsset_iff.2 ⟨found.numberedPaths before,
      found.numberedPaths after, ?_, fun entry hentry hsame ↦ ?_⟩, rfl⟩
    · rw [Found.numberedPaths, List.map_append, List.map_cons, hasset]
      rfl
    · obtain ⟨table, htable, rfl⟩ := List.mem_map.1 hentry
      exact hafter table htable <| (hnumber table
        (List.mem_append_right before (List.mem_cons_of_mem _ htable))).1 hsame

/-- The writer gets the tables in the order of their numbers. -/
theorem pairwise_sources (ingest : IngestRun) (files : Files) (found : Found) :
    ((ingest.sources files found).map Prod.fst).Pairwise (· < ·) := by
  rw [sources, found.pathsByAsset_eq, List.map_map, List.pairwise_map]
  exact Writer.pairwise_byAsset _

/-- **The writer gets all tables exactly if their numbers are pairwise different.** -/
theorem length_sources_eq_iff (ingest : IngestRun) (files : Files) (found : Found) :
    (ingest.sources files found).length = found.tables.length ↔
      found.tables.Pairwise fun a b ↦ found.numbers.get? a.1 ≠ found.numbers.get? b.1 := by
  have hlength : (found.numberedPaths found.tables).length = found.tables.length :=
    List.length_map _
  rw [sources, found.pathsByAsset_eq, List.length_map, ← hlength, Writer.length_byAsset_eq_iff,
    Found.numberedPaths, List.map_map, List.Nodup, List.pairwise_map]
  refine List.Pairwise.iff_of_mem fun {a b} ha hb ↦ not_congr ?_
  obtain ⟨number, hb'⟩ := Found.exists_number hb
  rw [hb', Function.comp, Function.comp, hb', Option.getD_some, Found.getD_number_eq_iff ha]

/-- **An ingest writes the last table of each number, and no other.** The summary has one outcome
for each number; no table is left out exactly if the tables have pairwise different numbers; and
the rows of each table that the writer gets are stored or counted as dropped. -/
theorem writes_last_tables (h : ingest.Saved path files found saved)
    (hopen : found.dataset.openWriter ingest.start ingest.stop saved = (.ok (writer, opened), made))
    (hbehavior : ingest.behavior.getD found.dataset.config.behavior ≠ .raise) :
    let numbers := found.numbers
    let given := ingest.sources made found
    let archive := made.archive opened .empty
    let batch := Writer.writeTables writer.calendar
      (ingest.behavior.getD found.dataset.config.behavior) none given archive
    ingest.run path files = ((batch.result.mapError .store).map printout,
        (made.save opened batch.archive).release []) ∧
      (∀ asset source, (asset, source) ∈ given ↔
        ∃ before symbol tablePath after,
          found.tables = before ++ (symbol, tablePath) :: after ∧
          numbers.get? symbol = some asset ∧
          (∀ table ∈ after, numbers.get? table.1 ≠ some asset) ∧
          source = TableFile.read ingest.parquet made tablePath) ∧
      (given.map Prod.fst).Pairwise (· < ·) ∧
      (given.length = found.tables.length ↔
        found.tables.Pairwise fun a b ↦ numbers.get? a.1 ≠ numbers.get? b.1) ∧
      (∀ summary, batch.result = .ok summary →
        summary.outcomes.map AssetOutcome.asset = given.map Prod.fst) ∧
      (archive.isReadOnly = false → (∀ bar ∈ archive.store.rows, bar.day.IsUnsigned) →
        (∀ source ∈ given, ∀ bars, Writer.barsOf? none source = some bars →
          ∀ bar ∈ bars, bar.day.IsUnsigned) →
        ∃ summary, batch.result = .ok summary ∧
          ∀ (k : Nat) asset table outcome, given[k]? = some (asset, .ok table) →
            summary.outcomes[k]? = some outcome →
            outcome.rowsWritten + (outcome.dropped.map DroppedSegment.rows).sum =
              table.height) := by
  intro numbers given archive batch
  refine ⟨?_, fun _ _ ↦ mem_sources_iff, pairwise_sources _ _ _, length_sources_eq_iff _ _ _,
    fun summary hresult ↦ Writer.map_asset_of_writeFrom hresult, fun hwritable hdays hgiven ↦ ?_⟩
  · rw [h.run, write, hopen]
  · obtain ⟨entries, hresult, haccounts, -⟩ :=
      Writer.exists_writeFrom_eq writer.calendar hbehavior hgiven hwritable hdays 0 .empty
    refine ⟨_, hresult, fun k asset table outcome hsource houtcome ↦ ?_⟩
    rw [Writer.outcomes_foldl_record] at houtcome
    have hnone : (WriteSummary.empty.outcomes ++ entries.map Prod.snd) = entries.map Prod.snd :=
      List.nil_append _
    rw [hnone] at houtcome
    have hadded : k < (entries.map Prod.fst).length := by
      have hk := (List.getElem?_eq_some_iff.1 houtcome).1
      rwa [List.length_map] at hk ⊢
    have haccount := Writer.AccountsAll.accounts haccounts hsource houtcome
      (List.getElem?_eq_getElem hadded)
    exact haccount.rowsWritten_add haccount.isSkipped_eq

/-- What the first ingest of a directory finds. -/
theorem Saved.eq_of_absent {listed : List (String × String)} {assigned : List (String × AssetId)}
    {numbers : SymbolMap} (h : ingest.Saved path files found saved)
    (habsent : files.content? path = none)
    (htables : TableFile.discover files ingest.directory = .ok listed)
    (hassign : SymbolMap.empty.assign? (listed.map (·.1)) = some (assigned, numbers)) :
    found.tables = listed ∧ found.assigned = assigned ∧ found.numbers = numbers := by
  obtain ⟨hdiscover, -, hload⟩ := begin_eq_ok h.begin
  have hlisted := Except.ok.inj (hdiscover.symm.trans htables)
  have hfound := found.assign?_eq
  rw [SymbolMap.eq_empty_of_load habsent hload, hlisted, hassign, Option.some_inj,
    Prod.mk.injEq] at hfound
  exact ⟨hlisted, hfound.1.symm, hfound.2.symm⟩

theorem writes_all_of_two_symbols :
    ∃ found saved writer opened made,
      Sample.ingest.Saved "m" (Sample.tableFiles ["SPY.csv", "aapl.csv"]) found saved ∧
      found.dataset.openWriter Sample.ingest.start Sample.ingest.stop saved =
        (.ok (writer, opened), made) ∧
      found.tables = [("AAPL", "t/aapl.csv"), ("SPY", "t/SPY.csv")] ∧
      (Sample.ingest.sources made found).length = found.tables.length := by
  have hopens : Sample.ingest.opens "m" (Sample.tableFiles ["SPY.csv", "aapl.csv"]) = true := by
    cbv
  obtain ⟨found, saved, writer, opened, made, hsaved, hopen⟩ := exists_of_opens hopens
  obtain ⟨-, -, -, hlength, -⟩ :=
    writes_last_tables hsaved hopen (by decide : Behavior.warn ≠ .raise)
  obtain ⟨htables, -, hnumbers⟩ := hsaved.eq_of_absent (by cbv)
    (by cbv : TableFile.discover (Sample.tableFiles ["SPY.csv", "aapl.csv"]) "t" =
      .ok [("AAPL", "t/aapl.csv"), ("SPY", "t/SPY.csv")])
    (by decide +kernel : SymbolMap.empty.assign? ["AAPL", "SPY"] =
      some ([("AAPL", ⟨0⟩), ("SPY", ⟨1⟩)], .ofEntries [("AAPL", ⟨0⟩), ("SPY", ⟨1⟩)]))
  refine ⟨found, saved, writer, opened, made, hsaved, hopen, htables, hlength.2 ?_⟩
  rw [htables, hnumbers]
  exact List.pairwise_pair.2 (by decide +kernel)

/-- **Two files that differ in the case of their names**: the first one is found and gets a number,
but the writer does not get it, and the summary does not tell. -/
theorem exists_table_left_out :
    ∃ found saved writer opened made,
      Sample.ingest.Saved "m" (Sample.tableFiles ["SPY.csv", "spy.csv"]) found saved ∧
      found.dataset.openWriter Sample.ingest.start Sample.ingest.stop saved =
        (.ok (writer, opened), made) ∧
      found.tables = [("SPY", "t/SPY.csv"), ("SPY", "t/spy.csv")] ∧
      Sample.ingest.sources made found =
        [(⟨0⟩, TableFile.read Sample.ingest.parquet made "t/spy.csv")] ∧
      ∀ summary, (Writer.writeTables writer.calendar .warn none (Sample.ingest.sources made found)
        (made.archive opened .empty)).result = .ok summary → summary.outcomes.length = 1 := by
  have hopens : Sample.ingest.opens "m" (Sample.tableFiles ["SPY.csv", "spy.csv"]) = true := by
    cbv
  obtain ⟨found, saved, writer, opened, made, hsaved, hopen⟩ := exists_of_opens hopens
  obtain ⟨htables, hassigned, -⟩ := hsaved.eq_of_absent (by cbv)
    (by cbv : TableFile.discover (Sample.tableFiles ["SPY.csv", "spy.csv"]) "t" =
      .ok [("SPY", "t/SPY.csv"), ("SPY", "t/spy.csv")])
    (by decide +kernel : SymbolMap.empty.assign? ["SPY", "SPY"] =
      some ([("SPY", ⟨0⟩), ("SPY", ⟨0⟩)], .ofEntries [("SPY", ⟨0⟩)]))
  have hpaths : Run.pathsByAsset [("SPY", ⟨0⟩), ("SPY", ⟨0⟩)]
      [("SPY", "t/SPY.csv"), ("SPY", "t/spy.csv")] = [(⟨0⟩, "t/spy.csv")] := by cbv
  have hsources : Sample.ingest.sources made found =
      [(⟨0⟩, TableFile.read Sample.ingest.parquet made "t/spy.csv")] := by
    rw [sources, htables, hassigned, hpaths]
    rfl
  refine ⟨found, saved, writer, opened, made, hsaved, hopen, htables, hsources,
    fun summary hresult ↦ ?_⟩
  have hlength := congrArg List.length (Writer.map_asset_of_writeFrom hresult)
  rwa [List.length_append, List.length_map, List.length_map, List.length_map, hsources] at hlength

end IngestRun

end DailyBars
