import DailyBars.AssetId

/-!
# Symbol maps

A symbol map gives symbols their asset numbers. Its entries are kept in the order of the symbols,
one entry for each. A symbol keeps its number; new symbols are numbered in the order in which they
come, from the number after the greatest one of the map, or from zero in an empty map.

The number for the next new symbol is always at hand: it is formed before the first symbol is looked
at, and again after each number that is given. Where there is none, nothing is assigned at all.
-/

namespace DailyBars

namespace SymbolMap

/-- Entries in the order of their symbols with one more put in, in place of any of its symbol. -/
def putEntry (symbol : String) (asset : AssetId) :
    List (String × AssetId) → List (String × AssetId)
  | [] => [(symbol, asset)]
  | entry :: rest =>
    if symbol < entry.1 then (symbol, asset) :: entry :: rest
    else if entry.1 < symbol then entry :: putEntry symbol asset rest
    else (symbol, asset) :: rest

theorem mem_putEntry {symbol : String} {asset : AssetId} {entries : List (String × AssetId)}
    {entry : String × AssetId} (h : entry ∈ putEntry symbol asset entries) :
    entry = (symbol, asset) ∨ entry ∈ entries := by
  induction entries with
  | nil => simpa [putEntry] using h
  | cons first rest ih =>
    unfold putEntry at h
    split at h
    · exact List.mem_cons.1 h
    · split at h
      · rcases List.mem_cons.1 h with h | h
        · exact .inr (h ▸ List.mem_cons_self)
        · exact (ih h).imp_right (List.mem_cons_of_mem first)
      · exact (List.mem_cons.1 h).imp_right (List.mem_cons_of_mem first)

theorem pairwise_putEntry {symbol : String} {asset : AssetId}
    {entries : List (String × AssetId)} (h : entries.Pairwise (·.1 < ·.1)) :
    (putEntry symbol asset entries).Pairwise (·.1 < ·.1) := by
  induction entries with
  | nil => simp [putEntry]
  | cons first rest ih =>
    have ⟨hfirst, hrest⟩ := List.pairwise_cons.1 h
    unfold putEntry
    split
    next hlt =>
      refine List.pairwise_cons.2 ⟨fun entry hentry ↦ ?_, h⟩
      rcases List.mem_cons.1 hentry with rfl | hentry
      · exact hlt
      · exact String.lt_trans hlt (hfirst entry hentry)
    next hlt =>
      split
      next hgt =>
        refine List.pairwise_cons.2 ⟨fun entry hentry ↦ ?_, ih hrest⟩
        rcases mem_putEntry hentry with rfl | hentry
        · exact hgt
        · exact hfirst entry hentry
      next hgt =>
        have heq : symbol = first.1 :=
          String.le_antisymm (String.not_lt.1 hgt) (String.not_lt.1 hlt)
        exact List.pairwise_cons.2 ⟨fun entry hentry ↦ heq ▸ hfirst entry hentry, hrest⟩

end SymbolMap

/-- The numbers of symbols. -/
structure SymbolMap where
  /-- Symbols with their numbers, in the order of the symbols. -/
  entries : List (String × AssetId)
  ordered : entries.Pairwise (·.1 < ·.1)
deriving DecidableEq

namespace SymbolMap

/-- The map without symbols. -/
def empty : SymbolMap := ⟨[], .nil⟩

instance : Inhabited SymbolMap := ⟨empty⟩

/-- The map with a number for a symbol, in place of any it has. -/
def put (map : SymbolMap) (symbol : String) (asset : AssetId) : SymbolMap :=
  ⟨putEntry symbol asset map.entries, pairwise_putEntry map.ordered⟩

/-- The map of entries; of several for one symbol the last counts. -/
def ofEntries (entries : List (String × AssetId)) : SymbolMap :=
  entries.foldl (fun map (symbol, asset) ↦ map.put symbol asset) empty

/-- The number of a symbol. -/
def get? (map : SymbolMap) (symbol : String) : Option AssetId :=
  (map.entries.find? fun entry ↦ entry.1 == symbol).map (·.2)

/-- The first symbol, in their order, with a number. -/
def symbolOf? (map : SymbolMap) (asset : AssetId) : Option String :=
  (map.entries.find? fun entry ↦ entry.2 == asset).map (·.1)

/-- The count of symbols. -/
def size (map : SymbolMap) : Nat :=
  map.entries.length

def isEmpty (map : SymbolMap) : Bool :=
  map.entries.isEmpty

/-- The numbers of the map, in order, each once. -/
def ids (map : SymbolMap) : List AssetId :=
  ((map.entries.map (·.2)).mergeSort fun a b ↦ decide (a ≤ b)).eraseReps

/-- The number for the first new symbol, if there is one. -/
def nextId? (map : SymbolMap) : Option AssetId :=
  match map.entries with
  | [] => some ⟨0⟩
  | (_, first) :: rest =>
    (rest.foldl (fun greatest entry ↦ if greatest ≤ entry.2 then entry.2 else greatest) first).next?

/-- The numbers of symbols in their order and the map with the new ones, which are numbered from
`free` on. -/
def assignFrom? (free : AssetId) (map : SymbolMap) :
    List String → Option (List (String × AssetId) × SymbolMap)
  | [] => some ([], map)
  | symbol :: rest =>
    match map.get? symbol with
    | some asset => do
      let (assigned, map) ← assignFrom? free map rest
      return ((symbol, asset) :: assigned, map)
    | none => do
      let (assigned, map) ← assignFrom? (← free.next?) (map.put symbol free) rest
      return ((symbol, free) :: assigned, map)

/-- The numbers of symbols, new ones where they have none, and the map with these; none where the
numbers run out. -/
def assign? (map : SymbolMap) (symbols : List String) :
    Option (List (String × AssetId) × SymbolMap) := do
  assignFrom? (← map.nextId?) map symbols

end SymbolMap

end DailyBars
