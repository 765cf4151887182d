import DailyBars.Proofs.Run.Numbers
import DailyBars.Proofs.Run.Tables
import DailyBars.Proofs.Text.Integer
import Mathlib

/-!
# Assets by their symbols

A command names an asset by a symbol in any case of its letters, or by a number. **A text that is no
number names the asset under which an ingest has written the table of its symbol**, and the command
answers as for the number of that asset (`Ingests.resolves_numbered_symbol`).

Numbers come first, and nothing keeps a table from being named like one. The symbol of such a table
is in the map, but its text names the asset of that number, which may be that of another table
(`Ingests.exists_symbol_of_other_asset`).
-/

namespace DailyBars

/-! ### Letters -/

namespace Text

theorem upper_upper (text : String) : upper (upper text) = upper text := by
  simp [upper, Function.comp_def]

/-- Texts that agree up to the case of their letters have one text in upper case. -/
theorem upper_eq_of_sameLetters {text other : String} (h : sameLetters text other = true) :
    upper text = upper other := by
  have hmap := congrArg (List.map Char.toUpper) (beq_iff_eq.1 h)
  simp only [List.map_map, Function.comp_def, Char.toUpper_toLower_eq_toUpper] at hmap
  exact congrArg String.ofList hmap

end Text

/-! ### Commands -/

namespace Run

variable {map : SymbolMap} {files : Files} {path text other : String} {asset : AssetId}
  {parquet : TableFile.Decoder}

/-- The number that a text is, if it is one. -/
def number? (text : String) : Option Int64 :=
  (Text.integer? text.toList).bind Text.int64?

theorem resolveAsset_of_number? {n : Int64} (h : number? text = some n) :
    resolveAsset map text = .ok ⟨n⟩ := by
  rw [number?] at h
  rw [resolveAsset, h]

theorem resolveAsset_of_get? (h : number? text = none)
    (hasset : map.get? (Text.upper text) = some asset) : resolveAsset map text = .ok asset := by
  rw [number?] at h
  rw [resolveAsset, h]
  dsimp only
  rw [hasset]

/-- The number of an asset names it. -/
theorem resolveAsset_text (map : SymbolMap) (asset : AssetId) :
    resolveAsset map asset.text = .ok asset := by
  have hnumber : number? asset.text = some asset.value := by
    rw [number?, AssetId.text, Text.integer?_int64Text, Option.bind_some, Text.int64?_toInt]
  exact resolveAsset_of_number? hnumber

/-- **Two texts that name one asset have one answer** to each command that looks something up. -/
theorem command_congr (hload : SymbolMap.load files path = .ok map)
    (h : resolveAsset map text = resolveAsset map other) (dataset : Dataset) :
    (∀ day field, (command parquet dataset (.value text day field path)).run files =
        (command parquet dataset (.value other day field path)).run files) ∧
      (∀ day, (command parquet dataset (.lastTraded text day path)).run files =
        (command parquet dataset (.lastTraded other day path)).run files) ∧
      ∀ fields start stop before after,
        (command parquet dataset (.read fields start stop (before ++ text :: after) path)).run
            files =
          (command parquet dataset (.read fields start stop (before ++ other :: after) path)).run
            files := by
  have hasset : assetOf map text = assetOf map other := by rw [assetOf, h, ← assetOf]
  refine ⟨fun day field ↦ ?_, fun day ↦ ?_, fun fields start stop before after ↦ ?_⟩
  · show (value dataset text day field path).run files =
      (value dataset other day field path).run files
    rw [value, value, run_bind_loadSymbols, run_bind_loadSymbols, hload]
    dsimp only [Except.mapError]
    rw [hasset]
  · show (lastTraded dataset text day path).run files =
      (lastTraded dataset other day path).run files
    rw [lastTraded, lastTraded, run_bind_loadSymbols, run_bind_loadSymbols, hload]
    dsimp only [Except.mapError]
    rw [hasset]
  · have hassets : (before ++ text :: after).mapM (assetOf map) =
        (before ++ other :: after).mapM (assetOf map) := by
      rw [List.mapM_append, List.mapM_append, List.mapM_cons, List.mapM_cons, hasset]
    show (read dataset fields start stop (before ++ text :: after) path).run files =
      (read dataset fields start stop (before ++ other :: after) path).run files
    rw [read, read]
    split
    · rfl
    · rw [run_bind_loadSymbols, run_bind_loadSymbols, hload]
      dsimp only [Except.mapError]
      rw [hassets]

end Run

/-! ### Symbols -/

namespace TableFile

/-- A symbol is in upper case. -/
theorem upper_symbol {files : Files} {directory : String} {tables : List (String × String)}
    (h : discover files directory = .ok tables) {table : String × String} (hmem : table ∈ tables) :
    Text.upper table.1 = table.1 := by
  cases hnames : files.listing? directory with
  | none =>
    rw [discover, hnames] at h
    cases h
  | some names =>
    obtain ⟨name, -, -, -, rfl⟩ := (mem_discover_iff hnames h).1 hmem
    exact Text.upper_upper _

end TableFile

namespace IngestRun

variable {ingest : IngestRun} {path symbol : String} {files saved made : Files} {found : Found}
  {asset : AssetId}

/-- The first ingest numbers its symbols in their order. -/
theorem Saved.numbers (h : ingest.Saved path files found saved)
    (habsent : files.has path = false)
    (hsize : (ingest.numbered path files).eraseDups.length < 2 ^ 63) :
    found.numbers.Numbers (ingest.numbered path files) := by
  rw [h.numbered] at hsize ⊢
  rw [Files.has, Option.isSome_eq_false_iff, Option.isNone_iff_eq_none] at habsent
  have hcontent : files.content? path = none := by rw [Files.content?, habsent]
  have hassign := found.assign?_eq
  rw [SymbolMap.eq_empty_of_load hcontent (begin_eq_ok h.begin).2.2] at hassign
  exact SymbolMap.numbers_empty.assign hassign hsize

/-- **Under the number of a symbol the writer gets the last table of that symbol**, where no other
symbol has the number. -/
theorem mem_sources_iff_of_number (hasset : found.numbers.get? symbol = some asset)
    (hdistinct : ∀ other, found.numbers.get? other = some asset → other = symbol)
    {source : Except StoreError Table} :
    (asset, source) ∈ ingest.sources made found ↔
      ∃ before tablePath after, found.tables = before ++ (symbol, tablePath) :: after ∧
        (∀ table ∈ after, table.1 ≠ symbol) ∧
        source = TableFile.read ingest.parquet made tablePath := by
  rw [mem_sources_iff]
  constructor
  · rintro ⟨before, other, tablePath, after, htables, hother, hafter, hsource⟩
    obtain rfl := hdistinct other hother
    exact ⟨before, tablePath, after, htables,
      fun table htable heq ↦ hafter table htable (heq ▸ hasset), hsource⟩
  · rintro ⟨before, tablePath, after, htables, hafter, hsource⟩
    exact ⟨before, symbol, tablePath, after, htables, hasset,
      fun table htable hsame ↦ hafter table htable (hdistinct table.1 hsame), hsource⟩

/-- The writer gets a table for every number. -/
theorem mem_assets_of_number {tablePath : String} (hmem : (symbol, tablePath) ∈ found.tables)
    (hasset : found.numbers.get? symbol = some asset) (ingest : IngestRun) (made : Files) :
    asset ∈ (ingest.sources made found).map Prod.fst := by
  have hpath : asset ∈ (found.numberedPaths found.tables).map Prod.fst := by
    refine List.mem_map.2 ⟨(asset, tablePath), List.mem_map.2 ⟨_, hmem, ?_⟩, rfl⟩
    rw [hasset, Option.getD_some]
  rw [sources, found.pathsByAsset_eq, List.map_map]
  exact Writer.mem_map_byAsset_iff.2 hpath

end IngestRun

namespace Ingests

variable {ingest : IngestRun} {path symbol text : String} {files : Files}

/-- **Symbols after the first ingest.** A text that agrees with a symbol up to the case of its
letters names the asset under which the writer got the table of that symbol, and a command answers
for the text as for the number of the asset; but a text that is a number names the asset of that
number. -/
theorem resolves_numbered_symbol (habsent : files.has path = false)
    (hsize : (ingest.numbered path files).eraseDups.length < 2 ^ 63)
    (hsymbol : symbol ∈ ingest.numbered path files)
    (htext : Text.sameLetters text symbol = true) :
    ∃ found saved map asset, ingest.Saved path files found saved ∧
      SymbolMap.load (ingest.run path files).2 path = .ok map ∧ map.get? symbol = some asset ∧
      (∀ made, asset ∈ (ingest.sources made found).map Prod.fst ∧
        ∀ source, (asset, source) ∈ ingest.sources made found ↔
          ∃ before tablePath after, found.tables = before ++ (symbol, tablePath) :: after ∧
            (∀ table ∈ after, table.1 ≠ symbol) ∧
            source = TableFile.read ingest.parquet made tablePath) ∧
      (∀ n, Run.number? text = some n → Run.resolveAsset map text = .ok ⟨n⟩) ∧
      (Run.number? text = none → Run.resolveAsset map text = .ok asset ∧
        ∀ later : Files, later.lookup? path = (ingest.run path files).2.lookup? path →
          ∀ (parquet : TableFile.Decoder) (dataset : Dataset),
            (∀ day field, (Run.command parquet dataset (.value text day field path)).run later =
              (Run.command parquet dataset (.value asset.text day field path)).run later) ∧
            (∀ day, (Run.command parquet dataset (.lastTraded text day path)).run later =
              (Run.command parquet dataset (.lastTraded asset.text day path)).run later) ∧
            ∀ fields start stop before after,
              (Run.command parquet dataset
                  (.read fields start stop (before ++ text :: after) path)).run later =
                (Run.command parquet dataset
                  (.read fields start stop (before ++ asset.text :: after) path)).run later) := by
  obtain ⟨found, saved, hsaved⟩ := IngestRun.exists_saved (List.ne_nil_of_mem hsymbol)
  have hnumbers := hsaved.numbers habsent hsize
  have hload := SymbolMap.load_of_lookup? hsaved.lookup?
  have hdiscover := (IngestRun.begin_eq_ok hsaved.begin).1
  rw [hsaved.numbered] at hsymbol
  obtain ⟨⟨_, tablePath⟩, hmem, rfl⟩ := List.mem_map.1 hsymbol
  obtain ⟨asset, hasset⟩ := IngestRun.Found.exists_number hmem
  refine ⟨found, saved, _, asset, hsaved, hload, hasset, fun made ↦
    ⟨IngestRun.mem_assets_of_number hmem hasset ingest made, fun source ↦
      IngestRun.mem_sources_iff_of_number hasset fun other hother ↦
        hnumbers.eq_of_get? hother hasset⟩,
    fun n ↦ Run.resolveAsset_of_number?, fun hnumber ↦ ?_⟩
  have hresolve : Run.resolveAsset found.numbers text = .ok asset := by
    refine Run.resolveAsset_of_get? hnumber ?_
    rw [Text.upper_eq_of_sameLetters htext, TableFile.upper_symbol hdiscover hmem]
    exact hasset
  refine ⟨hresolve, fun later hlookup parquet dataset ↦ ?_⟩
  exact Run.command_congr ((SymbolMap.load_congr hlookup).trans hload)
    (hresolve.trans (Run.resolveAsset_text _ asset).symm) dataset

theorem resolves_symbol_in_lower_case :
    let files := Sample.tableFiles ["SPY.csv", "aapl.csv"]
    files.has "m" = false ∧ "SPY" ∈ Sample.ingest.numbered "m" files ∧
      ∃ map asset, SymbolMap.load (Sample.ingest.run "m" files).2 "m" = .ok map ∧
        map.get? "SPY" = some asset ∧ Run.resolveAsset map "spy" = .ok asset := by
  intro files
  have habsent : files.has "m" = false := by cbv
  have hnumbered : Sample.ingest.numbered "m" files = ["AAPL", "SPY"] := by cbv
  have hsymbol : "SPY" ∈ Sample.ingest.numbered "m" files := by
    rw [hnumbered]
    decide
  have hletters : Text.sameLetters "spy" "SPY" = true := by decide
  obtain ⟨_, _, map, asset, -, hload, hasset, -, -, hresolve⟩ :=
    resolves_numbered_symbol habsent (by rw [hnumbered]; decide) hsymbol hletters
  exact ⟨habsent, hsymbol, map, asset, hload, hasset, (hresolve (by decide)).1⟩

/-- **A symbol that is a number**: the table of `1` is written under 0, and the text `1` names the
asset of the other table. -/
theorem exists_symbol_of_other_asset :
    let files := Sample.tableFiles ["1.csv", "spy.csv"]
    ∃ map, SymbolMap.load (Sample.ingest.run "m" files).2 "m" = .ok map ∧
      map.get? "1" = some ⟨0⟩ ∧ map.get? "SPY" = some ⟨1⟩ ∧
      Run.resolveAsset map "1" = .ok ⟨1⟩ := by
  intro files
  have hnumbered : Sample.ingest.numbered "m" files = ["1", "SPY"] := by cbv
  have hne : Sample.ingest.numbered "m" files ≠ [] := by
    rw [hnumbered]
    decide
  obtain ⟨found, saved, hsaved⟩ := IngestRun.exists_saved hne
  have hnumbers := hsaved.numbers (by cbv) (by rw [hnumbered]; decide)
  rw [hnumbered] at hnumbers
  exact ⟨_, SymbolMap.load_of_lookup? hsaved.lookup?, (hnumbers "1" ⟨0⟩).2 ⟨0, rfl, rfl⟩,
    (hnumbers "SPY" ⟨1⟩).2 ⟨1, rfl, rfl⟩, Run.resolveAsset_of_number? (by decide)⟩

end Ingests

end DailyBars
