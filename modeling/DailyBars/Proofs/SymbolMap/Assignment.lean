import DailyBars.Proofs.SymbolMap.Document
import DailyBars.Proofs.SymbolMap.Numbering
import Mathlib

/-!
# New numbers in any map

The numbers of a map that comes from a document can be anywhere in the range of signed 64-bit
numbers. New symbols are numbered above all others, so different numbers stay different
(`SymbolMap.Assigns.nodup_numbers`), as long as the numbers do not run out. The number after the
last one given is formed as well, whether or not a symbol needs it: a map with the greatest number
of all has no assignment, not even if it knows all symbols of the list, and one with the number
before has none with a new symbol, although there is a number for it
(`SymbolMap.exists_map_without_assignment`).
-/

namespace DailyBars.SymbolMap

variable {map next : SymbolMap} {symbols : List String} {symbol other : String}
  {asset number : AssetId} {assigned : List (String × AssetId)}

/-- New numbers are above all others. -/
theorem Assigns.lt_of_mem_newSymbols
    (h : map.Assigns symbols (map.greatest + 1) assigned next)
    (hsymbol : symbol ∈ map.newSymbols symbols) (hasset : next.get? symbol = some asset)
    (hnumber : map.get? other = some number) : number < asset := by
  rcases (h.get?_iff _ _).1 hasset with hold | ⟨i, -, hvalue⟩
  · exact absurd (hold.symm.trans (mem_newSymbols.1 hsymbol).2) (Option.some_ne_none _)
  · rw [AssetId.lt_iff_toInt, hvalue]
    have := le_greatest hnumber
    omega

/-- **No two symbols come to have one number** if no two had before. -/
theorem Assigns.nodup_numbers (h : map.Assigns symbols (map.greatest + 1) assigned next)
    (hnodup : (map.entries.map (·.2)).Nodup) : (next.entries.map (·.2)).Nodup := by
  refine List.Nodup.map_on ?_ (List.Nodup.of_map _ (nodup_symbols _))
  rintro ⟨symbol, asset⟩ hentry ⟨other, number⟩ hother heq
  obtain rfl : asset = number := heq
  rw [← get?_eq_some_iff] at hentry hother
  refine Prod.ext ?_ rfl
  rcases (h.get?_iff _ _).1 hentry with hold | ⟨i, hi, hvalue⟩
  · rcases (h.get?_iff _ _).1 hother with hold' | ⟨j, hj, -⟩
    · exact Option.some.inj <| ((symbolOf?_eq_some_iff hnodup).2 hold).symm.trans
        ((symbolOf?_eq_some_iff hnodup).2 hold')
    · exact absurd (h.lt_of_mem_newSymbols (List.mem_of_getElem? hj) hother hold) (lt_irrefl _)
  · rcases (h.get?_iff _ _).1 hother with hold' | ⟨j, hj, hvalue'⟩
    · exact absurd (h.lt_of_mem_newSymbols (List.mem_of_getElem? hi) hentry hold') (lt_irrefl _)
    · obtain rfl : i = j := by omega
      exact Option.some.inj (hi.symm.trans hj)

/-- **What assigning does to any map.** It comes to its end exactly if one more number is left above
the greatest than there are new symbols. Then all symbols of the list are answered in its order,
with the numbers that they have in the map afterwards. That map has the old numbers and, for the new
symbols in the order in which each comes first, those from the one after the greatest on, which are
above all old ones. So different numbers stay different, and a number leads back to its symbol. -/
theorem assign_above_greatest (map : SymbolMap) (symbols : List String) :
    ((map.assign? symbols).isSome = true ↔
      map.greatest + 1 + (map.newSymbols symbols).length < 2 ^ 63) ∧
    ((map.newSymbols symbols).Nodup ∧
      ∀ symbol, symbol ∈ map.newSymbols symbols ↔ symbol ∈ symbols ∧ map.get? symbol = none) ∧
    ∀ assigned next, map.assign? symbols = some (assigned, next) →
      (assigned.map (·.1) = symbols ∧
        ∀ entry ∈ assigned, next.get? entry.1 = some entry.2) ∧
      (∀ symbol asset, next.get? symbol = some asset ↔
        map.get? symbol = some asset ∨
          ∃ i : Nat, (map.newSymbols symbols)[i]? = some symbol ∧
            asset.value.toInt = map.greatest + 1 + i) ∧
      (∀ symbol ∈ map.newSymbols symbols, ∀ asset, next.get? symbol = some asset →
        ∀ other number, map.get? other = some number → number < asset) ∧
      ((map.entries.map (·.2)).Nodup →
        (next.entries.map (·.2)).Nodup ∧
          ∀ symbol asset, next.symbolOf? asset = some symbol ↔ next.get? symbol = some asset) := by
  refine ⟨isSome_assign?_iff, ⟨nodup_newSymbols _ _, fun _ ↦ mem_newSymbols⟩,
    fun assigned next hassign ↦ ?_⟩
  have hassigns := assigns_of_assign? hassign
  refine ⟨⟨hassigns.map_fst, hassigns.get?_of_mem⟩, hassigns.get?_iff,
    fun _ hsymbol _ hasset _ _ ↦ hassigns.lt_of_mem_newSymbols hsymbol hasset, fun hnodup ↦ ?_⟩
  have hnodup' := hassigns.nodup_numbers hnodup
  exact ⟨hnodup', fun _ _ ↦ symbolOf?_eq_some_iff hnodup'⟩

namespace Sample

/-- Two symbols with numbers in no order. -/
def unsorted : SymbolMap :=
  ofEntries [("A", ⟨5⟩), ("B", ⟨-2⟩)]

/-- The map after two new symbols, one of which comes twice. -/
def numbered : SymbolMap :=
  ofEntries [("A", ⟨5⟩), ("B", ⟨-2⟩), ("C", ⟨6⟩), ("D", ⟨7⟩)]

/-- One symbol with the greatest number of all. -/
def full : SymbolMap :=
  ofEntries [("M", ⟨9223372036854775807⟩)]

/-- One symbol, with the number before the greatest. -/
def nearlyFull : SymbolMap :=
  ofEntries [("M", ⟨9223372036854775806⟩)]

end Sample

/-- Two new symbols, one of which comes twice, are numbered from six on. -/
theorem assign_above_five :
    Sample.unsorted.assign? ["C", "A", "D", "C"] =
        some ([("C", ⟨6⟩), ("A", ⟨5⟩), ("D", ⟨7⟩), ("C", ⟨6⟩)], Sample.numbered) ∧
      Sample.numbered.symbolOf? ⟨7⟩ = some "D" := by
  have hassign : Sample.unsorted.assign? ["C", "A", "D", "C"] =
      some ([("C", ⟨6⟩), ("A", ⟨5⟩), ("D", ⟨7⟩), ("C", ⟨6⟩)], Sample.numbered) := by
    decide +kernel
  obtain ⟨-, -, hall⟩ := assign_above_greatest Sample.unsorted ["C", "A", "D", "C"]
  obtain ⟨-, -, -, hdifferent⟩ := hall _ _ hassign
  exact ⟨hassign, ((hdifferent (by decide +kernel)).2 _ _).2 (by decide +kernel)⟩

/-- The map of a document with the greatest number of all, no two symbols of which have one number,
has no assignment, not even of its own symbol; nor has one with the number before for a new symbol,
which would have a number. -/
theorem exists_map_without_assignment :
    (ofText "[assets]
M = 9223372036854775807
" = .ok Sample.full ∧
      (Sample.full.entries.map (·.2)).Nodup ∧
      Sample.full.get? "M" = some ⟨9223372036854775807⟩ ∧
      Sample.full.assign? ["M"] = none ∧ Sample.full.assign? ["A"] = none) ∧
    (ofText "[assets]
M = 9223372036854775806
" = .ok Sample.nearlyFull ∧
      (Sample.nearlyFull.entries.map (·.2)).Nodup ∧
      Sample.nearlyFull.get? "A" = none ∧
      Sample.nearlyFull.nextId? = some ⟨9223372036854775807⟩ ∧
      Sample.nearlyFull.assign? ["A"] = none) := by
  have hfull : Sample.full.toText = "[assets]
M = 9223372036854775807
" := by cbv
  have hnearly : Sample.nearlyFull.toText = "[assets]
M = 9223372036854775806
" := by cbv
  rw [← hfull, ← hnearly]
  exact ⟨⟨ofText_toText _, by decide +kernel⟩, ofText_toText _, by decide +kernel⟩

end DailyBars.SymbolMap
