import DailyBars.Proofs.Files.Listing
import DailyBars.Proofs.Run.Ingest
import DailyBars.Proofs.SymbolMap.Numbering
import Mathlib

/-!
# Numbers over many runs

A symbol map that starts absent and that only ingests touch numbers the symbols from zero on
(`IsNumbered`): by the run that first comes to save them, and within a run in the order of the
symbols. One run keeps this (`IsNumbered.run`), whether it is refused, fails after the map is saved,
or writes, and so do all runs (`Ingests.isNumbered`), with anything else that happens to other files
in between. So **a number never changes and is never given twice**
(`Ingests.numbers_by_first_appearance`).

What a run numbers are the symbols of the tables in its directory. Neither these nor whether the map
can be saved depend on the order in which the directory is listed (`IngestRun.numbered_congr`).
-/

namespace DailyBars

/-- Ingests with one symbol map, from some files to others, with the symbols that each of them
numbers. Between two of them files may change, but what the path of the map leads to stays. -/
inductive Ingests (path : String) : Files → List (List String) → Files → Prop
  | nil (files : Files) : Ingests path files [] files
  | other {files next later : Files} {seen : List (List String)} :
    Ingests path files seen next → later.lookup? path = next.lookup? path →
    Ingests path files seen later
  | run {files next : Files} {seen : List (List String)} (ingest : IngestRun) :
    Ingests path files seen next →
    Ingests path files (seen ++ [ingest.numbered path next]) (ingest.run path next).2

/-- The map at a path numbers the symbols of a list; as long as there are none, no map needs to be
there. -/
def IsNumbered (path : String) (files : Files) (symbols : List String) : Prop :=
  (symbols = [] ∧ files.IsUnwritten path) ∨
    ∃ map : SymbolMap, files.lookup? path = some map.node ∧ map.Numbers symbols

variable {path : String} {files mid next : Files} {symbols : List String} {ingest : IngestRun}

namespace IngestRun

/-- What is found at first does not depend on the order of a listing. -/
theorem begin_congr (h : files.Rearranged next) :
    ingest.begin path next = ingest.begin path files := by
  have hload : SymbolMap.load next path = SymbolMap.load files path :=
    SymbolMap.load_congr (h.lookup? path)
  rw [begin, begin, h.resolve, h.discover, hload]
  simp only [h.ofConfig]

/-- **What is numbered does not depend on the order of a listing.** -/
theorem numbered_congr (h : files.Rearranged next) :
    ingest.numbered path next = ingest.numbered path files := by
  rw [numbered, numbered, begin_congr h]
  simp only [h.save]

/-- The symbols of a run come in their order. -/
theorem pairwise_numbered (ingest : IngestRun) (path : String) (files : Files) :
    (ingest.numbered path files).Pairwise (· ≤ ·) := by
  rcases ingest.refused_or_saved path files with hrefused | ⟨_, _, hsaved⟩
  · rw [hrefused.numbered]
    exact .nil
  · rw [hsaved.numbered]
    exact TableFile.pairwise_discover (begin_eq_ok hsaved.begin).1

end IngestRun

/-- **One run numbers its symbols behind those that were there.** -/
theorem IsNumbered.run (h : IsNumbered path files symbols)
    (hsize : (symbols ++ ingest.numbered path files).eraseDups.length < 2 ^ 63) :
    IsNumbered path (ingest.run path files).2 (symbols ++ ingest.numbered path files) := by
  rcases ingest.refused_or_saved path files with hrefused | ⟨found, _, hsaved⟩
  · rw [hrefused.numbered, List.append_nil]
    rcases h with ⟨hnil, hcontent | hwrite⟩ | ⟨map, hlookup, hnumbers⟩
    · exact .inl ⟨hnil, hrefused.unwritten hcontent⟩
    · exact .inl ⟨hnil, .inr hwrite⟩
    · exact .inr ⟨map, hrefused.keeps.lookup?_eq_some hlookup map.isSettled_node, hnumbers⟩
  · obtain ⟨-, -, hload⟩ := IngestRun.begin_eq_ok hsaved.begin
    rw [hsaved.numbered] at hsize ⊢
    refine .inr ⟨_, hsaved.lookup?, SymbolMap.Numbers.assign ?_ found.assign?_eq hsize⟩
    rcases h with ⟨hnil, hcontent | hwrite⟩ | ⟨old, hlookup, hnumbers⟩
    · rw [SymbolMap.eq_empty_of_load hcontent hload, hnil]
      exact SymbolMap.numbers_empty
    · obtain ⟨_, _, hsave⟩ := SymbolMap.exists_save_error hwrite found.numbers files
      cases hsaved.save.symm.trans hsave
    · obtain rfl : old = found.map :=
        Except.ok.inj ((SymbolMap.load_of_lookup? hlookup).symm.trans hload)
      exact hnumbers

theorem IsNumbered.of_lookup? (h : IsNumbered path files symbols)
    (hlookup : next.lookup? path = files.lookup? path) : IsNumbered path next symbols := by
  rcases h with ⟨hnil, hunwritten⟩ | ⟨map, hmap, hnumbers⟩
  · refine .inl ⟨hnil, hunwritten.imp_left fun hcontent ↦ ?_⟩
    rwa [Files.content?, hlookup, ← Files.content?]
  · exact .inr ⟨map, hlookup.trans hmap, hnumbers⟩

namespace Ingests

variable {seen more : List (List String)}

/-- All runs number their symbols one behind the other. -/
theorem isNumbered (h : Ingests path files more next) (hfiles : IsNumbered path files symbols)
    (hsize : (symbols ++ more.flatten).eraseDups.length < 2 ^ 63) :
    IsNumbered path next (symbols ++ more.flatten) := by
  induction h with
  | nil => rwa [List.flatten_nil, List.append_nil]
  | other _ hlookup ih => exact (ih hsize).of_lookup? hlookup
  | run ingest _ ih =>
    rw [List.flatten_append, List.flatten_singleton, ← List.append_assoc] at hsize ⊢
    exact (ih ((length_eraseDups_le _ _).trans_lt hsize)).run hsize

/-- The symbols of each run come in their order. -/
theorem pairwise_of_mem (h : Ingests path files seen next) :
    ∀ symbols ∈ seen, symbols.Pairwise (· ≤ ·) := by
  induction h with
  | nil => exact fun _ hmem ↦ absurd hmem List.not_mem_nil
  | other _ _ ih => exact ih
  | run ingest _ ih =>
    intro symbols hmem
    rcases List.mem_append.1 hmem with hmem | hmem
    · exact ih symbols hmem
    · rw [List.mem_singleton.1 hmem]
      exact ingest.pairwise_numbered _ _

/-- **The numbers of an absent symbol map.** After any runs it numbers the symbols from zero on by
the run of their first appearance, and in their order within a run; no two symbols have one number;
what it has after some of the runs it has after all of them; and there are numbers for more symbols,
as long as not all numbers are given. -/
theorem numbers_by_first_appearance (habsent : files.has path = false)
    (hseen : Ingests path files seen mid) (hmore : Ingests path mid more next)
    (hsize : (seen ++ more).flatten.eraseDups.length < 2 ^ 63) :
    ((seen ++ more).flatten = [] ∧ next.IsUnwritten path ∨
      ∃ map, SymbolMap.load next path = .ok map ∧
        (∀ symbol asset, map.get? symbol = some asset ↔
          ∃ i : Nat, (seen ++ more).flatten.eraseDups[i]? = some symbol ∧
            asset.value.toInt = i) ∧
        (∀ symbol other asset, map.get? symbol = some asset → map.get? other = some asset →
          symbol = other) ∧
        (∀ symbol ∈ seen.flatten, ∃ old asset, SymbolMap.load mid path = .ok old ∧
          old.get? symbol = some asset ∧ map.get? symbol = some asset) ∧
        ∀ symbols, ((seen ++ more).flatten ++ symbols).eraseDups.length < 2 ^ 63 →
          ∃ assigned numbers, map.assign? symbols = some (assigned, numbers)) ∧
      (∀ symbols ∈ seen ++ more, symbols.Pairwise (· ≤ ·)) ∧
      ∀ (ingest : IngestRun) (files other : Files), files.Rearranged other →
        ingest.numbered path other = ingest.numbered path files := by
  have hstart : IsNumbered path files [] := by
    refine .inl ⟨rfl, .inl ?_⟩
    rw [Files.has, Option.isSome_eq_false_iff, Option.isNone_iff_eq_none] at habsent
    rw [Files.content?, habsent]
  rw [List.flatten_append] at hsize ⊢
  have hmid : IsNumbered path mid seen.flatten :=
    hseen.isNumbered hstart ((length_eraseDups_le _ _).trans_lt hsize)
  refine ⟨?_, ?_, fun _ _ _ ↦ IngestRun.numbered_congr⟩
  · rcases hmore.isNumbered hmid hsize with hnone | ⟨map, hlookup, hnumbers⟩
    · exact .inl hnone
    · refine .inr ⟨map, SymbolMap.load_of_lookup? hlookup, hnumbers,
        fun _ _ _ ↦ hnumbers.eq_of_get?, fun symbol hsymbol ↦ ?_, fun _ ↦ hnumbers.exists_assign?⟩
      rcases hmid with ⟨hnil, -⟩ | ⟨old, hold, hnumbers'⟩
      · rw [hnil] at hsymbol
        cases hsymbol
      · obtain ⟨i, hi⟩ := List.mem_iff_getElem?.1 (List.mem_eraseDups.2 hsymbol)
        obtain ⟨hlt, rfl⟩ := List.getElem?_eq_some_iff.1 hi
        have hi' := List.prefix_iff_getElem?.1 (eraseDups_isPrefix seen.flatten more.flatten) i hlt
        have hlt' := (List.getElem?_eq_some_iff.1 hi').1.trans hsize
        exact ⟨old, .ofPlace i, SymbolMap.load_of_lookup? hold,
          (hnumbers' _ _).2 ⟨i, hi, AssetId.toInt_ofPlace hlt'⟩,
          (hnumbers _ _).2 ⟨i, hi', AssetId.toInt_ofPlace hlt'⟩⟩
  · intro symbols hmem
    exact (List.mem_append.1 hmem).elim (hseen.pairwise_of_mem symbols)
      (hmore.pairwise_of_mem symbols)

theorem numbers_of_two_symbols :
    let files := Sample.tableFiles ["SPY.csv", "aapl.csv"]
    files.has "m" = false ∧
      ∃ map, SymbolMap.load (Sample.ingest.run "m" files).2 "m" = .ok map ∧
        map.get? "AAPL" = some ⟨0⟩ ∧ map.get? "SPY" = some ⟨1⟩ := by
  intro files
  have habsent : files.has "m" = false := by cbv
  have hnumbered : Sample.ingest.numbered "m" files = ["AAPL", "SPY"] := by cbv
  have hflatten : (([] ++ [Sample.ingest.numbered "m" files]) ++ []).flatten =
      ["AAPL", "SPY"] := by
    rw [hnumbered]
    rfl
  have hnumbers := numbers_by_first_appearance habsent (.run Sample.ingest (.nil _)) (.nil _)
    (by rw [hflatten]; decide)
  rw [hflatten] at hnumbers
  obtain ⟨⟨hnil, -⟩ | ⟨map, hload, hmap, -⟩, -⟩ := hnumbers
  · cases hnil
  · exact ⟨habsent, map, hload, (hmap "AAPL" ⟨0⟩).2 ⟨0, rfl, rfl⟩, (hmap "SPY" ⟨1⟩).2 ⟨1, rfl, rfl⟩⟩

end Ingests

end DailyBars
