import DailyBars.Proofs.Files.Writing
import DailyBars.Proofs.SymbolMap.Document
import Mathlib

/-!
# Saved symbol maps

**A map that is saved at a path is loaded from it** (`SymbolMap.load_of_save`), as long as the path
leads to the same file (`SymbolMap.load_congr`). If saving fails, the files that were there stay,
and no map has come to be. It fails for what the path leads to only, never for what the map holds,
since every map has a text and reads back from it (`SymbolMap.restored`).
-/

namespace DailyBars.SymbolMap

variable {files next : Files} {path : String} {map : SymbolMap}

/-- The node of the file with a map. -/
def node (map : SymbolMap) : Node :=
  .file (Text.pieces map.toText.toList)

/-- The text of a map is not empty, so nothing writes over it. -/
theorem isSettled_node (map : SymbolMap) : map.node.IsSettled := by
  intro hnil
  have htext : map.toText.toList = [] := List.map_eq_nil_iff.1 hnil
  rw [toText, String.toList_ofList] at htext
  simp [Toml.headerText] at htext

/-- What is loaded depends on what the path leads to. -/
theorem load_congr (h : next.lookup? path = files.lookup? path) :
    load next path = load files path := by
  have hhas : next.has path = files.has path := congrArg Option.isSome h
  have htext : next.text? path = files.text? path := by
    rw [Files.text?, Files.text?, Files.content?, Files.content?, h]
  rw [load, load, hhas, htext]

theorem load_of_lookup? (h : files.lookup? path = some map.node) : load files path = .ok map := by
  have htext : files.text? path = some map.toText := by
    rw [Files.text?, Files.content?, h, node, Option.bind_some, Text.wholeText?_pieces,
      Option.map_some, String.ofList_toList]
  rw [load, Files.has, h, Option.isSome_some, if_pos rfl, htext]
  exact ofText_toText map

/-- Only the empty map is loaded from where no file is. -/
theorem eq_empty_of_load (habsent : files.content? path = none)
    (h : load files path = .ok map) : map = empty := by
  rw [load, Files.text?, habsent] at h
  split at h
  · cases h
  · exact (Except.ok.inj h).symm

theorem lookup?_of_save (h : map.save files path = (.ok (), next)) :
    next.lookup? path = some map.node := by
  rw [save] at h
  split at h
  · cases h
  · split at h
    · cases h
    · rename_i hwrite
      cases h
      exact Files.lookup?_write? hwrite

/-- **A saved map is loaded as it was.** -/
theorem load_of_save (h : map.save files path = (.ok (), next)) : load next path = .ok map :=
  load_of_lookup? (lookup?_of_save h)

/-- Saving that fails only makes directories. -/
theorem keeps_of_save_error {cause : ConfigError} (h : map.save files path = (.error cause, next)) :
    files.Keeps next := by
  have hparents := files.keeps_makeParents path
  rw [save] at h
  split at h
  · rename_i hmade
    rw [hmade] at hparents
    cases h
    exact hparents
  · rename_i hmade
    rw [hmade] at hparents
    split at h
    · cases h
      exact hparents
    · cases h

theorem isUnwritten_of_save_error {cause : ConfigError}
    (h : map.save files path = (.error cause, next)) (habsent : files.content? path = none) :
    next.IsUnwritten path := by
  rw [save] at h
  split at h
  · rename_i hmade
    cases h
    have hcontent := Files.content?_makeParents (by rw [hmade]) habsent
    rw [hmade] at hcontent
    exact .inl hcontent
  · split at h
    · rename_i hwrite
      cases h
      exact Files.isUnwritten_of_write?_eq_none hwrite
    · cases h

/-- Nothing is saved where nothing can be written. -/
theorem exists_save_error (h : ∀ (other : Files) (text : String), other.write? path text = none)
    (map : SymbolMap) (files : Files) :
    ∃ cause next, map.save files path = (.error cause, next) := by
  rw [save]
  split
  · exact ⟨_, _, rfl⟩
  · rw [h]
    exact ⟨_, _, rfl⟩

theorem write?_isNone_congr (files : Files) (path text other : String) :
    (files.write? path text).isNone = (files.write? path other).isNone := by
  rw [Files.write?, Files.write?]
  cases files.locate? path with
  | none => rfl
  | some location =>
    show Option.isNone (if _ then none else _) = Option.isNone (if _ then none else _)
    split
    · rfl
    · rfl

/-- **What a map holds has no part in whether it can be saved.** -/
theorem save_fst_congr (map other : SymbolMap) (files : Files) (path : String) :
    (map.save files path).1 = (other.save files path).1 := by
  rw [save, save]
  split
  · rfl
  · rename_i made hmade
    have hnone := write?_isNone_congr made path map.toText other.toText
    cases hmap : made.write? path map.toText with
    | none =>
      rw [hmap] at hnone
      rw [Option.isNone_iff_eq_none.1 hnone.symm]
    | some next =>
      rw [hmap] at hnone
      obtain ⟨later, hother⟩ := Option.ne_none_iff_exists'.1
        (Option.isNone_eq_false_iff.1 hnone.symm |> Option.isSome_iff_ne_none.1)
      rw [hother]

/-- **A map is restored** from its text and from the file that it was saved in, whatever its symbols
and its numbers are. -/
theorem restored (map : SymbolMap) :
    ofText map.toText = .ok map ∧
      (∀ (other : SymbolMap) files path, (map.save files path).1 = (other.save files path).1) ∧
      ∀ files path next, map.save files path = (.ok (), next) → load next path = .ok map :=
  ⟨ofText_toText map, save_fst_congr map, fun _ _ _ ↦ load_of_save⟩

namespace Sample

/-- Symbols that need quotes, escapes or both as keys, with numbers at both ends and one twice. -/
def odd : SymbolMap :=
  ofEntries [("", ⟨-9223372036854775808⟩), ("a.b", ⟨9223372036854775807⟩), ("a", ⟨0⟩),
    ("\"'\\", ⟨0⟩), ("line\nfeed\x00", ⟨-1⟩), (" # ü", ⟨7⟩)]

end Sample

/-- Odd symbols are saved where neither the file nor its directory is there. -/
theorem restored_odd_symbols :
    let saved := Sample.odd.save .empty "d/m"
    Sample.odd.size = 6 ∧ saved.1 = .ok () ∧ load saved.2 "d/m" = .ok Sample.odd ∧
      ofText Sample.odd.toText = .ok Sample.odd := by
  obtain ⟨htext, hsave, hload⟩ := restored Sample.odd
  have hsaved : (Sample.odd.save .empty "d/m").1 = .ok () := by
    rw [hsave empty]
    cbv
  exact ⟨by decide +kernel, hsaved, hload _ _ _ (Prod.ext hsaved rfl), htext⟩

end DailyBars.SymbolMap
