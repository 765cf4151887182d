import DailyBars.Proofs.Result
import DailyBars.Proofs.SymbolMap.Saved
import DailyBars.Run
import Mathlib

/-!
# Runs of an ingest

A run of an ingest has two halves. Until the tables have numbers it only looks
(`IngestRun.begin`): it fails with the files as they are, or it has a dataset, the tables of the
directory and the map with their numbers (`IngestRun.Found`). Then it saves the map, opens the store
and writes (`IngestRun.run_eq`). **Once the map is saved, it stays whatever becomes of the rest**
(`IngestRun.lookup?_of_numbered`).
-/

namespace DailyBars

namespace Run

variable {α β : Type}

/-! ### Steps -/

/-- A run of two steps: the second one starts with the files that the first one leaves. -/
theorem run_bind (x : Run α) (f : α → Run β) (files : Files) :
    (x >>= f).run files =
      match x.run files with
      | (.ok a, next) => (f a).run next
      | (.error failure, next) => (.error failure, next) := by
  show (ExceptT.bindCont f (x.run files).1 (x.run files).2) = _
  obtain ⟨result, next⟩ := x.run files
  cases result with
  | ok => rfl
  | error => rfl

theorem run_bind_files (f : Files → Run β) (files : Files) :
    (getThe Files >>= f).run files = (f files).run files := rfl

/-- A step that changes no files. -/
theorem run_bind_pure (result : Except CommandFailure α) (f : α → Run β) (files : Files) :
    (ExceptT.mk (pure result) >>= f).run files =
      match result with
      | .ok a => (f a).run files
      | .error failure => (.error failure, files) := by
  rw [run_bind]
  cases result with
  | ok => rfl
  | error => rfl

theorem run_bind_loadSymbols (path : String) (f : SymbolMap → Run β) (files : Files) :
    (loadSymbols path >>= f).run files =
      match (SymbolMap.load files path).mapError CommandFailure.symbols with
      | .ok map => (f map).run files
      | .error failure => (.error failure, files) := by
  have hload : (loadSymbols path).run files =
      ((SymbolMap.load files path).mapError CommandFailure.symbols, files) := by
    rw [loadSymbols, run_bind_files]
    rfl
  rw [run_bind, hload]
  cases SymbolMap.load files path with
  | ok => rfl
  | error => rfl

/-- A step that changes files. -/
theorem run_bind_onFiles {ε : Type} (failure : ε → CommandFailure)
    (step : Files → Except ε α × Files) (f : α → Run β) (files : Files) :
    (onFiles failure step >>= f).run files =
      match step files with
      | (.ok a, next) => (f a).run next
      | (.error cause, next) => (.error (failure cause), next) := by
  rw [run_bind]
  show (match ((step files).1.mapError failure, (step files).2) with
    | (.ok a, next) => (f a).run next
    | (.error failure, next) => (.error failure, next)) = _
  obtain ⟨result, next⟩ := step files
  cases result with
  | ok => rfl
  | error => rfl

end Run

/-- What an ingest is called with, apart from the path of the symbol map. -/
structure IngestRun where
  /-- What decodes tables that are not delimited text. -/
  parquet : TableFile.Decoder
  config : Option String
  environment : Environment
  directory : String
  start : Day
  stop : Day
  behavior : Option Behavior

namespace IngestRun

variable {ingest : IngestRun} {path : String} {files next saved : Files} {dataset : Dataset}

/-- Runs the ingest with the symbol map at a path. -/
def run (ingest : IngestRun) (path : String) (files : Files) :
    Except CommandFailure Printout × Files :=
  Invocation.run ⟨ingest.config, .ingest ingest.directory ingest.start ingest.stop ingest.behavior
    path⟩ ingest.parquet ingest.environment files

/-- What an ingest finds before it changes files. -/
structure Found where
  dataset : Dataset
  /-- The tables of the directory, with their symbols. -/
  tables : List (String × String)
  /-- The symbol map that is there. -/
  map : SymbolMap
  /-- The symbols of the tables with their numbers. -/
  assigned : List (String × AssetId)
  /-- The map in which all tables have numbers. -/
  numbers : SymbolMap
  assign?_eq : map.assign? (tables.map (·.1)) = some (assigned, numbers)

variable {found : Found}

/-- The tables are numbered, if there are enough numbers. -/
def number (dataset : Dataset) (tables : List (String × String)) (map : SymbolMap) :
    Except CommandFailure Found :=
  match h : map.assign? (tables.map (·.1)) with
  | some (assigned, numbers) => .ok ⟨dataset, tables, map, assigned, numbers, h⟩
  | none => .error (.store .stopped)

theorem number_of_some {tables : List (String × String)} {map : SymbolMap}
    {assigned : List (String × AssetId)} {numbers : SymbolMap}
    (h : map.assign? (tables.map (·.1)) = some (assigned, numbers)) :
    number dataset tables map = .ok ⟨dataset, tables, map, assigned, numbers, h⟩ := by
  rw [number]
  split
  · rename_i heq
    cases h.symm.trans heq
    rfl
  · rename_i heq
    cases h.symm.trans heq

theorem number_of_none {tables : List (String × String)} {map : SymbolMap}
    (h : map.assign? (tables.map (·.1)) = none) :
    number dataset tables map = .error (.store .stopped) := by
  rw [number]
  split
  · rename_i heq
    cases h.symm.trans heq
  · rfl

/-- What the ingest finds before it changes files. -/
def begin (ingest : IngestRun) (path : String) (files : Files) : Except CommandFailure Found := do
  let config ← (Settings.resolve files ingest.config ingest.environment).mapError .settings
  let dataset ← (Dataset.ofConfig files config).mapError .store
  let tables ← (TableFile.discover files ingest.directory).mapError .store
  if tables.isEmpty then throw (.noTables ingest.directory)
  let map ← (SymbolMap.load files path).mapError .symbols
  number dataset tables map

/-- The tables that the writer gets, in the order of their assets. -/
def sources (ingest : IngestRun) (files : Files) (found : Found) : List Writer.Source :=
  (Run.pathsByAsset found.assigned found.tables).map fun (asset, path) ↦
    (asset, TableFile.read ingest.parquet files path)

/-- The printed summary of a batch. -/
def printout (summary : WriteSummary) : Printout where
  lines := [(Report.summary summary).toText]
  notes := if summary.isClean then [] else [Report.uncleanNote summary]

/-- Opens the store and writes the tables. -/
def write (ingest : IngestRun) (found : Found) (files : Files) :
    Except CommandFailure Printout × Files :=
  match found.dataset.openWriter ingest.start ingest.stop files with
  | (.error cause, files) => (.error (.store cause), files)
  | (.ok (writer, opened), files) =>
    let batch := Writer.writeTables writer.calendar
      (ingest.behavior.getD found.dataset.config.behavior) none (ingest.sources files found)
      (files.archive opened .empty)
    ((batch.result.mapError .store).map printout, files.save opened batch.archive)

/-- Saves the map and writes. -/
def finish (ingest : IngestRun) (path : String) (found : Found) (files : Files) :
    Except CommandFailure Printout × Files :=
  match found.numbers.save files path with
  | (.error cause, files) => (.error (.symbols cause), files)
  | (.ok (), files) => ingest.write found files

theorem run_writeFiles (parquet : TableFile.Decoder) (writer : Writer) (opened : OpenStore)
    (behavior : Behavior) (paths : List (AssetId × String)) (files : Files) :
    (Run.writeFiles parquet writer opened behavior paths).run files =
      let batch := Writer.writeTables writer.calendar behavior none
        (paths.map fun (asset, path) ↦ (asset, TableFile.read parquet files path))
        (files.archive opened .empty)
      (batch.result.mapError .store, files.save opened batch.archive) := rfl

/-- **The two halves of a run**: what it finds, and what it makes of that. -/
theorem run_eq (ingest : IngestRun) (path : String) (files : Files) :
    ingest.run path files =
      match ingest.begin path files with
      | .error failure => (.error failure, files.release [])
      | .ok found =>
        let (result, next) := ingest.finish path found files
        (result, next.release []) := by
  rw [run, Invocation.run, Run.invocation, begin]
  dsimp only
  rw [Run.run_bind_files, Run.run_bind_pure]
  cases (Settings.resolve files ingest.config ingest.environment).mapError
    CommandFailure.settings with
  | error => rfl
  | ok config =>
    dsimp only
    rw [Run.ofStore, Run.run_bind_pure]
    dsimp only [bind, Except.bind]
    cases (Dataset.ofConfig files config).mapError CommandFailure.store with
    | error cause => rfl
    | ok dataset =>
      dsimp only
      rw [Run.command, Run.ingest, Run.run_bind_files, Run.ofStore, Run.run_bind_pure]
      cases (TableFile.discover files ingest.directory).mapError CommandFailure.store with
      | error cause => rfl
      | ok tables =>
        dsimp only
        cases tables.isEmpty with
        | true => rfl
        | false =>
          rw [if_neg Bool.false_ne_true, if_neg Bool.false_ne_true, Run.run_bind_loadSymbols]
          cases (SymbolMap.load files path).mapError CommandFailure.symbols with
          | error cause => rfl
          | ok map =>
            dsimp only
            rw [Run.orStop, Run.ofStore, Run.run_bind_pure]
            cases hassign : map.assign? (tables.map (·.1)) with
            | none =>
              rw [number_of_none hassign]
              rfl
            | some answer =>
              obtain ⟨assigned, numbers⟩ := answer
              rw [number_of_some hassign]
              dsimp only [Option.elim, Except.mapError]
              rw [Run.run_bind_onFiles, finish]
              dsimp only
              generalize numbers.save files path = step
              obtain ⟨result, saved⟩ := step
              cases result with
              | error cause => rfl
              | ok =>
                dsimp only
                rw [Run.run_bind_onFiles, write]
                dsimp only
                generalize dataset.openWriter ingest.start ingest.stop saved = step
                obtain ⟨result, made⟩ := step
                cases result with
                | error cause => rfl
                | ok opened =>
                  dsimp only
                  rw [Run.run_bind, run_writeFiles]
                  dsimp only [sources]
                  generalize Writer.writeTables opened.1.calendar _ none _ _ = batch
                  cases batch.result with
                  | error => rfl
                  | ok => rfl

/-- What the first half answers. -/
theorem begin_eq_ok (h : ingest.begin path files = .ok found) :
    TableFile.discover files ingest.directory = .ok found.tables ∧ found.tables ≠ [] ∧
      SymbolMap.load files path = .ok found.map := by
  obtain ⟨config, -, h⟩ := Result.bind_eq_ok_iff.1 h
  obtain ⟨dataset, -, h⟩ := Result.bind_eq_ok_iff.1 h
  obtain ⟨listed, hdiscover, h⟩ := Result.bind_eq_ok_iff.1 h
  split at h
  · cases h
  · rename_i hne
    obtain ⟨loaded, hload, h⟩ := Result.bind_eq_ok_iff.1 h
    rw [number] at h
    split at h
    · cases h
      refine ⟨Result.mapError_eq_ok_iff.1 hdiscover, ?_, Result.mapError_eq_ok_iff.1 hload⟩
      rintro rfl
      exact hne rfl
    · cases h

/-- The symbols of the tables, in their order, of an ingest that comes to save the map; no symbols
of any other. -/
def numbered (ingest : IngestRun) (path : String) (files : Files) : List String :=
  match ingest.begin path files with
  | .error _ => []
  | .ok found =>
    match (found.numbers.save files path).1 with
    | .error _ => []
    | .ok () => found.tables.map (·.1)

/-- What a run leaves that did not come to save the map. -/
structure Refused (ingest : IngestRun) (path : String) (files : Files) : Prop where
  numbered : ingest.numbered path files = []
  keeps : files.Keeps (ingest.run path files).2
  unwritten : files.content? path = none → (ingest.run path files).2.IsUnwritten path

/-- What leads up to a saved map, and what comes after it. -/
structure Saved (ingest : IngestRun) (path : String) (files : Files) (found : Found)
    (saved : Files) : Prop where
  begin : ingest.begin path files = .ok found
  save : found.numbers.save files path = (.ok (), saved)
  numbered : ingest.numbered path files = found.tables.map (·.1)
  run : ingest.run path files =
    ((ingest.write found saved).1, (ingest.write found saved).2.release [])

/-- **A run comes to save the map, or it does not.** -/
theorem refused_or_saved (ingest : IngestRun) (path : String) (files : Files) :
    ingest.Refused path files ∨ ∃ found saved, ingest.Saved path files found saved := by
  have hrun := ingest.run_eq path files
  cases hbegin : ingest.begin path files with
  | error failure =>
    rw [hbegin] at hrun
    refine .inl ⟨by rw [numbered, hbegin], ?_, fun hcontent ↦ .inl ?_⟩
    · rw [hrun]
      exact files.keeps_release []
    · rwa [hrun, Files.content?, Files.lookup?_release, ← Files.content?]
  | ok found =>
    rw [hbegin] at hrun
    cases hsave : found.numbers.save files path with
    | mk result saved =>
      cases result with
      | error cause =>
        have hfinish : ingest.finish path found files = (.error (.symbols cause), saved) := by
          rw [finish, hsave]
        dsimp only at hrun
        rw [hfinish] at hrun
        refine .inl ⟨by rw [numbered, hbegin]; dsimp only; rw [hsave], ?_, fun hcontent ↦ ?_⟩
        · rw [hrun]
          exact (SymbolMap.keeps_of_save_error hsave).trans (saved.keeps_release [])
        · rw [hrun]
          exact (SymbolMap.isUnwritten_of_save_error hsave hcontent).release
      | ok =>
        have hfinish : ingest.finish path found files = ingest.write found saved := by
          rw [finish, hsave]
        dsimp only at hrun
        rw [hfinish] at hrun
        exact .inr ⟨found, saved, hbegin, hsave,
          by rw [numbered, hbegin]; dsimp only; rw [hsave], hrun⟩

/-- Opening the store and writing keeps what is there. -/
theorem keeps_write (ingest : IngestRun) (found : Found) (files : Files) :
    files.Keeps (ingest.write found files).2 := by
  have hkeeps := found.dataset.keeps_openWriter ingest.start ingest.stop files
  rw [write]
  split
  · rename_i heq
    rwa [heq] at hkeeps
  · rename_i heq
    rw [heq] at hkeeps
    exact hkeeps.trans (Files.keeps_save (Dataset.storeAt?_of_openWriter heq) _)

/-- **A saved map stays**, whatever becomes of the rest of the run. -/
theorem Saved.lookup? (h : ingest.Saved path files found saved) :
    (ingest.run path files).2.lookup? path = some found.numbers.node := by
  rw [h.run, Files.lookup?_release]
  exact (ingest.keeps_write found saved).lookup?_eq_some
    (SymbolMap.lookup?_of_save h.save) (SymbolMap.isSettled_node _)

/-- A run that numbers symbols has saved them. -/
theorem exists_saved (h : ingest.numbered path files ≠ []) :
    ∃ found saved, ingest.Saved path files found saved :=
  (ingest.refused_or_saved path files).resolve_left fun hrefused ↦ h hrefused.numbered

/-- Whether a run comes to write: it saves the map and opens the store. -/
def opens (ingest : IngestRun) (path : String) (files : Files) : Bool :=
  match ingest.begin path files with
  | .error _ => false
  | .ok found =>
    match found.numbers.save files path with
    | (.error _, _) => false
    | (.ok (), saved) => (found.dataset.openWriter ingest.start ingest.stop saved).1.toBool

theorem exists_of_opens (h : ingest.opens path files = true) :
    ∃ found saved writer opened made,
      ingest.Saved path files found saved ∧
      found.dataset.openWriter ingest.start ingest.stop saved = (.ok (writer, opened), made) := by
  rw [opens] at h
  rcases ingest.refused_or_saved path files with hrefused | ⟨found, saved, hsaved⟩
  · have hnumbered := hrefused.numbered
    have htables : ∀ {found : Found}, ingest.begin path files = .ok found →
        found.tables.map (·.1) ≠ [] := fun hbegin hnil ↦
      (begin_eq_ok hbegin).2.1 (List.map_eq_nil_iff.1 hnil)
    rw [IngestRun.numbered] at hnumbered
    split at h
    · cases h
    · rename_i hbegin
      rw [hbegin] at hnumbered
      dsimp only at hnumbered
      split at h
      · cases h
      · rename_i hsave
        rw [hsave] at hnumbered
        exact absurd hnumbered (htables hbegin)
  · rw [hsaved.begin] at h
    dsimp only at h
    rw [hsaved.save] at h
    dsimp only at h
    cases hopen : found.dataset.openWriter ingest.start ingest.stop saved with
    | mk result made =>
      rw [hopen] at h
      cases result with
      | error => cases h
      | ok pair => exact ⟨found, saved, pair.1, pair.2, made, hsaved, hopen⟩

end IngestRun

namespace Sample

/-- A table of one day. -/
def csv : List Text.Piece :=
  Text.pieces "day,open,high,low,close,volume\n2024-01-02,10,11,9,10.5,100\n".toList

/-- The directory `t` with a table in each of some files, and nothing else. -/
def tableFiles (names : List String) : Files where
  nodes := (["t"], .directory) :: names.map fun name ↦ (["t", name], .file csv)
  held := []

/-- The tables in `t` are ingested into the store at `d`. -/
def ingest : IngestRun where
  parquet := fun _ ↦ none
  config := none
  environment := fun name ↦ if name = Settings.databaseVariable then some "d" else none
  directory := "t"
  start := ⟨19724, by decide⟩
  stop := ⟨19724, by decide⟩
  behavior := some .warn

end Sample

end DailyBars
