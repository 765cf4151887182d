import DailyBars.SymbolMap.Basic
import Mathlib

/-!
# The entries of a symbol map

A symbol map is its entries, and a symbol has the number of its one entry
(`SymbolMap.get?_eq_some_iff`). Putting an entry in changes the number of its symbol and of no other
(`SymbolMap.get?_put`). Entries that come in their order are put one behind the other, so **a map is
made of its own entries** (`SymbolMap.ofEntries_entries`); this is what reading a map back needs.
-/

namespace DailyBars.SymbolMap

variable {map : SymbolMap} {symbol other : String} {asset : AssetId}

theorem find?_putEntry (symbol other : String) (asset : AssetId)
    (entries : List (String × AssetId)) :
    (putEntry symbol asset entries).find? (fun entry ↦ entry.1 == other) =
      if other = symbol then some (symbol, asset)
      else entries.find? fun entry ↦ entry.1 == other := by
  have hfirst : ∀ rest : List (String × AssetId),
      ((symbol, asset) :: rest).find? (fun entry ↦ entry.1 == other) =
        if other = symbol then some (symbol, asset)
        else rest.find? fun entry ↦ entry.1 == other := by
    intro rest
    rw [List.find?_cons]
    by_cases h : other = symbol
    · rw [if_pos h, h, beq_self_eq_true]
    · rw [if_neg h, beq_false_of_ne (Ne.symm h)]
  induction entries with
  | nil => exact hfirst []
  | cons first rest ih =>
    rw [putEntry]
    split
    · exact hfirst _
    · rename_i hnot
      split
      · rename_i hlt
        rw [List.find?_cons, List.find?_cons, ih]
        by_cases h : first.1 = other
        · have hne : other ≠ symbol := by
            rintro rfl
            rw [h] at hlt
            exact String.lt_irrefl _ hlt
          rw [beq_iff_eq.2 h, if_neg hne, if_neg hne]
        · rw [beq_false_of_ne h]
      · rename_i hnot'
        have hsame : symbol = first.1 :=
          String.le_antisymm (String.not_lt.1 hnot') (String.not_lt.1 hnot)
        rw [hfirst, List.find?_cons, ← hsame]
        by_cases h : other = symbol
        · rw [if_pos h, if_pos h]
        · rw [if_neg h, if_neg h, beq_false_of_ne (Ne.symm h)]

/-- **A number that is put in is that of its symbol**, and all other symbols keep theirs. -/
theorem get?_put (map : SymbolMap) (symbol other : String) (asset : AssetId) :
    (map.put symbol asset).get? other = if other = symbol then some asset else map.get? other := by
  rw [get?, put, find?_putEntry, apply_ite (Option.map _)]
  rfl

theorem eq_of_entries {map next : SymbolMap} (h : map.entries = next.entries) : map = next := by
  cases map
  cases next
  cases h
  rfl

/-- No symbol has two entries. -/
theorem nodup_symbols (map : SymbolMap) : (map.entries.map (·.1)).Nodup := by
  refine (List.pairwise_map.2 map.ordered).imp fun hlt ↦ ?_
  rintro rfl
  exact String.lt_irrefl _ hlt

/-- Of entries whose keys are all different, the one with a key is found by it. -/
theorem find?_eq_some_iff {κ : Type} [BEq κ] [LawfulBEq κ] {key : String × AssetId → κ} {k : κ}
    {entries : List (String × AssetId)} {entry : String × AssetId} (h : (entries.map key).Nodup) :
    entries.find? (fun entry ↦ key entry == k) = some entry ↔ entry ∈ entries ∧ key entry = k := by
  constructor
  · intro hfind
    exact ⟨List.mem_of_find?_eq_some hfind, eq_of_beq (List.find?_some hfind :)⟩
  · rintro ⟨hmem, hkey⟩
    obtain ⟨found, hfind⟩ : ∃ found, entries.find? (fun entry ↦ key entry == k) = some found :=
      Option.isSome_iff_exists.1 (List.find?_isSome.2 ⟨entry, hmem, beq_iff_eq.2 hkey⟩)
    have hsame : key found = key entry := (eq_of_beq (List.find?_some hfind :)).trans hkey.symm
    rw [hfind, List.inj_on_of_nodup_map h (List.mem_of_find?_eq_some hfind) hmem hsame]

/-- A symbol has the number of its entry. -/
theorem get?_eq_some_iff : map.get? symbol = some asset ↔ (symbol, asset) ∈ map.entries := by
  rw [get?, Option.map_eq_some_iff]
  constructor
  · rintro ⟨⟨found, asset⟩, hfind, rfl⟩
    obtain ⟨hmem, rfl⟩ := (find?_eq_some_iff map.nodup_symbols).1 hfind
    exact hmem
  · intro hmem
    exact ⟨_, (find?_eq_some_iff map.nodup_symbols).2 ⟨hmem, rfl⟩, rfl⟩

/-- If all numbers are different, a number has the symbol of its entry. -/
theorem symbolOf?_eq_some_iff (h : (map.entries.map (·.2)).Nodup) :
    map.symbolOf? asset = some symbol ↔ map.get? symbol = some asset := by
  rw [get?_eq_some_iff, symbolOf?, Option.map_eq_some_iff]
  constructor
  · rintro ⟨⟨symbol, found⟩, hfind, rfl⟩
    obtain ⟨hmem, rfl⟩ := (find?_eq_some_iff h).1 hfind
    exact hmem
  · intro hmem
    exact ⟨_, (find?_eq_some_iff h).2 ⟨hmem, rfl⟩, rfl⟩

theorem get?_empty (symbol : String) : empty.get? symbol = none := rfl

/-- An entry behind all others is put at the end. -/
theorem putEntry_of_forall_lt {entries : List (String × AssetId)}
    (h : ∀ entry ∈ entries, entry.1 < symbol) :
    putEntry symbol asset entries = entries ++ [(symbol, asset)] := by
  induction entries with
  | nil => rfl
  | cons first rest ih =>
    obtain ⟨hfirst, hrest⟩ := List.forall_mem_cons.1 h
    have hnot : ¬symbol < first.1 := fun hlt ↦ String.lt_irrefl _ (String.lt_trans hlt hfirst)
    rw [putEntry, if_neg hnot, if_pos hfirst, ih hrest]
    rfl

/-- **A map is made of its entries.** -/
theorem ofEntries_entries (map : SymbolMap) : ofEntries map.entries = map := by
  -- The entries that are put in already come before all that are left.
  have hbehind : ∀ (later : List (String × AssetId)) (done : SymbolMap),
      (done.entries ++ later).Pairwise (·.1 < ·.1) →
      (later.foldl (fun map entry ↦ map.put entry.1 entry.2) done).entries =
        done.entries ++ later := by
    intro later
    induction later with
    | nil => exact fun done _ ↦ (List.append_nil _).symm
    | cons first later ih =>
      intro done hordered
      have hput : (done.put first.1 first.2).entries = done.entries ++ [first] :=
        putEntry_of_forall_lt fun entry hentry ↦
          (List.pairwise_append.1 hordered).2.2 entry hentry first List.mem_cons_self
      have hnext := ih (done.put first.1 first.2)
      rw [hput, List.append_assoc] at hnext
      exact hnext hordered
  have hentries : (ofEntries map.entries).entries = map.entries :=
    hbehind map.entries empty map.ordered
  exact eq_of_entries hentries

end DailyBars.SymbolMap
