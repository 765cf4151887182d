import DailyBars.Proofs.SymbolMap.Entries
import DailyBars.Proofs.Toml.Document
import DailyBars.Proofs.Toml.Lines
import DailyBars.SymbolMap.Document
import Mathlib

/-!
# Symbol maps read back

The text of a symbol map is read back as the same map, whatever its symbols and its numbers are
(`SymbolMap.ofText_toText`). The text is one header and one line for each entry; no symbol has two
entries, so no line assigns to a key that has a value already, and the entries are in the order in
which the map has them.
-/

namespace DailyBars

namespace SymbolMap

open Toml

/-- An entry as a value with its key. -/
def toValue (entry : String × AssetId) : String × Value :=
  (entry.1, .integer entry.2.value)

theorem mapM_toValue (entries : List (String × AssetId)) :
    ((entries.map toValue).mapM fun entry ↦
      entry.2.integer?.map fun n ↦ (entry.1, AssetId.mk n)) = some entries := by
  induction entries with
  | nil => rfl
  | cons first rest ih =>
    rw [List.map_cons, List.mapM_cons, ih]
    rfl

/-- The lines of a map, with what they say. -/
def lines (map : SymbolMap) : List (List Char × Statement) :=
  (headerText "assets", .table [] "assets") :: map.entries.map fun entry ↦
    (assignText entry.1 (integerText entry.2.value), .assign [] entry.1 (.integer entry.2.value))

theorem toList_toText (map : SymbolMap) : map.toText.toList = map.lines.flatMap (·.1) := by
  rw [toText, String.toList_ofList, lines, List.flatMap_cons, List.flatMap_map]

theorem isLine_of_mem_lines {map : SymbolMap} :
    ∀ line ∈ map.lines, IsLine line.1 line.2 := by
  refine List.forall_mem_cons.2 ⟨isLine_headerText "assets", fun line hline ↦ ?_⟩
  obtain ⟨entry, -, rfl⟩ := List.mem_map.1 hline
  exact isLine_assignText_integerText entry.1 entry.2.value

/-- **A map reads back from its text**, whatever its symbols and its numbers are. -/
theorem ofText_toText (map : SymbolMap) : ofText map.toText = .ok map := by
  have hlines := toList_toText map
  have hsteps : map.lines.length < (map.lines.flatMap (·.1)).length + 1 :=
    Nat.lt_succ_of_le (length_le_of_isLine isLine_of_mem_lines)
  have hkeys : ((map.entries.map toValue).map (·.1)).Nodup := by
    rw [List.map_map]
    exact map.nodup_symbols
  have hdocument : Toml.ofText? map.toText =
      some [("assets", .table (map.entries.map toValue))] := by
    have hstatements : map.lines.map (·.2) =
        assignments [] ++ .table [] "assets" :: assignments (map.entries.map toValue) := by
      rw [lines, List.map_cons, List.map_map, assignments, assignments, List.map_map]
      rfl
    -- The text begins with a bracket, so it has no mark of its encoding to leave out.
    obtain ⟨rest, hrest⟩ : ∃ rest, map.lines.flatMap (·.1) = '[' :: rest := ⟨_, rfl⟩
    rw [Toml.ofText?, hlines, hrest]
    show (statements (('[' :: rest).length + 1) ('[' :: rest) >>= ofStatements?) = _
    rw [← hrest, statements_flatMap isLine_of_mem_lines hsteps, hstatements]
    exact ofStatements?_table List.nodup_nil List.not_mem_nil hkeys
  have htable : ofTable? (.table (map.entries.map toValue)) = some map := by
    show ((map.entries.map toValue).mapM (fun entry ↦
      entry.2.integer?.map fun n ↦ (entry.1, AssetId.mk n)) >>= fun entries ↦
        some (ofEntries entries)) = _
    rw [mapM_toValue]
    exact congrArg some (ofEntries_entries map)
  have hfield : field? [("assets", Value.table (map.entries.map toValue))] "assets" ofTable?
      (some empty) = some map := by
    rw [field?, entry?, List.find?_cons, beq_iff_eq.2 rfl]
    exact htable
  rw [ofText, hdocument, Option.bind_some, hfield]

end SymbolMap

end DailyBars
