import DailyBars.Proofs.Files.Keeping
import DailyBars.Dataset
import DailyBars.Settings
import DailyBars.SymbolMap.Document
import DailyBars.Table.File
import Mathlib

/-!
# The order of a listing

The names in a directory come in the order of the nodes, which is any order. The tables that are
found there are sorted, so **they are the same in whatever order the names come**
(`Files.Rearranged.discover`). Nothing else that a command looks up depends on that order
(`Files.Rearranged.lookup?`).
-/

namespace DailyBars

namespace TableFile

theorem pairLe_iff {a b : String × String} :
    pairLe a b = true ↔ a.1 < b.1 ∨ a.1 = b.1 ∧ a.2 ≤ b.2 := by
  simp [pairLe]

theorem pairLe_trans (a b c : String × String) (hab : pairLe a b = true)
    (hbc : pairLe b c = true) : pairLe a c = true := by
  rw [pairLe_iff] at *
  rcases hab with hab | ⟨hab, hab'⟩
  · rcases hbc with hbc | ⟨hbc, -⟩
    · exact .inl (String.lt_trans hab hbc)
    · exact .inl (hbc ▸ hab)
  · rcases hbc with hbc | ⟨hbc, hbc'⟩
    · exact .inl (hab ▸ hbc)
    · exact .inr ⟨hab.trans hbc, String.le_trans hab' hbc'⟩

theorem pairLe_total (a b : String × String) : (pairLe a b || pairLe b a) = true := by
  rw [Bool.or_eq_true, pairLe_iff, pairLe_iff]
  by_cases hlt : a.1 < b.1
  · exact .inl (.inl hlt)
  · by_cases hgt : b.1 < a.1
    · exact .inr (.inl hgt)
    · have heq : a.1 = b.1 := String.le_antisymm (String.not_lt.1 hgt) (String.not_lt.1 hlt)
      exact (String.le_total a.2 b.2).imp (fun h ↦ .inr ⟨heq, h⟩) fun h ↦ .inr ⟨heq.symm, h⟩

theorem pairLe_antisymm {a b : String × String} (hab : pairLe a b = true)
    (hba : pairLe b a = true) : a = b := by
  rw [pairLe_iff] at hab hba
  rcases hab with hab | ⟨hab, hab'⟩
  · rcases hba with hba | ⟨hba, -⟩
    · exact absurd (String.lt_trans hab hba) (String.lt_irrefl _)
    · exact absurd (hba ▸ hab) (String.lt_irrefl _)
  · rcases hba with hba | ⟨-, hba'⟩
    · exact absurd (hab ▸ hba) (String.lt_irrefl _)
    · exact Prod.ext hab (String.le_antisymm hab' hba')

/-- Sorted pairs do not depend on the order in which they come. -/
theorem mergeSort_eq_of_perm {pairs others : List (String × String)} (h : pairs.Perm others) :
    pairs.mergeSort pairLe = others.mergeSort pairLe :=
  ((List.mergeSort_perm _ _).trans (h.trans (List.mergeSort_perm _ _).symm)).eq_of_pairwise
    (fun _ _ _ _ ↦ pairLe_antisymm) (List.pairwise_mergeSort pairLe_trans pairLe_total _)
    (List.pairwise_mergeSort pairLe_trans pairLe_total _)

/-- The symbols of the tables in a directory are in their order. -/
theorem pairwise_discover {files : Files} {directory : String} {tables : List (String × String)}
    (h : discover files directory = .ok tables) :
    (tables.map (·.1)).Pairwise (· ≤ ·) := by
  rw [discover] at h
  split at h
  · cases h
  · cases h
    rw [List.pairwise_map]
    refine (List.pairwise_mergeSort pairLe_trans pairLe_total _).imp fun {a b} hle ↦ ?_
    rcases pairLe_iff.1 hle with hlt | ⟨heq, -⟩
    · exact String.not_lt.1 fun hgt ↦ String.lt_irrefl _ (String.lt_trans hlt hgt)
    · exact heq ▸ String.le_refl _

/-- The tables in a directory: the files with the ending of a table, each with its symbol. -/
theorem mem_discover_iff {files : Files} {directory : String} {names : List String}
    {tables : List (String × String)} (hnames : files.listing? directory = some names)
    (h : discover files directory = .ok tables) {table : String × String} :
    table ∈ tables ↔ ∃ name ∈ names, (formatOfName? name).isSome = true ∧
      Files.isPath (Files.join directory name) = true ∧
      table = (Text.upper (splitName name).1, Files.join directory name) := by
  rw [discover, hnames] at h
  cases h
  rw [List.mem_mergeSort, List.mem_map]
  simp only [List.mem_filter, Bool.and_eq_true, and_assoc, @eq_comm _ _ table]

end TableFile

namespace Files

/-- The same nodes, listed in another order. -/
structure Rearranged (files other : Files) : Prop where
  node? : ∀ location, other.node? location = files.node? location
  nodes : other.nodes.Perm files.nodes

namespace Rearranged

variable {files other : Files}

theorem lookup? (h : files.Rearranged other) (path : String) :
    other.lookup? path = files.lookup? path :=
  lookup?_congr h.node? path

theorem content? (h : files.Rearranged other) (path : String) :
    other.content? path = files.content? path := by
  rw [Files.content?, Files.content?, h.lookup?]

theorem text? (h : files.Rearranged other) (path : String) :
    other.text? path = files.text? path := by
  rw [Files.text?, Files.text?, h.content?]

/-- The names in a directory come in another order. -/
theorem listing? (h : files.Rearranged other) (directory : String) :
    Option.Rel List.Perm (other.listing? directory) (files.listing? directory) := by
  rw [Files.listing?, Files.listing?, locate?_congr h.node?]
  cases files.locate? directory with
  | none => exact .none
  | some location =>
    dsimp only [bind, Option.bind]
    rw [isDirectory_congr h.node?]
    split
    · exact .none
    · exact .some (h.nodes.filterMap _)

/-- **The tables in a directory do not depend on the order in which it is listed.** -/
theorem discover (h : files.Rearranged other) (directory : String) :
    TableFile.discover other directory = TableFile.discover files directory := by
  have hlisting := h.listing? directory
  rw [TableFile.discover, TableFile.discover]
  generalize other.listing? directory = names' at hlisting ⊢
  generalize files.listing? directory = names at hlisting ⊢
  cases hlisting with
  | none => rfl
  | some hnames =>
    refine congrArg Except.ok (TableFile.mergeSort_eq_of_perm ?_)
    exact (hnames.filter _).map _

/-! ### Runs -/

theorem resolve (h : files.Rearranged other) (flag : Option String) (environment : Environment) :
    Settings.resolve other flag environment = Settings.resolve files flag environment := by
  have hload : ∀ path, Config.load other path = Config.load files path := by
    intro path
    rw [Config.load, Config.load, h.text?]
  rw [Settings.resolve, Settings.resolve, Settings.base, Settings.base]
  cases flag <|> Settings.setting? environment Settings.configVariable with
  | none => rfl
  | some path =>
    dsimp only
    rw [hload]

theorem ofConfig (h : files.Rearranged other) (config : Config) :
    Dataset.ofConfig other config = Dataset.ofConfig files config := by
  have hread : ∀ path, SessionFile.read other path = SessionFile.read files path := by
    intro path
    rw [SessionFile.read, SessionFile.read, h.content?]
  rw [Dataset.ofConfig, Dataset.ofConfig, CalendarConfig.resolve, CalendarConfig.resolve]
  simp only [hread]

theorem makeAlong {next : Files} (h : ∀ location, next.node? location = files.node? location)
    (start : Location) (components : List String) :
    (next.makeAlong start components).1 = (files.makeAlong start components).1 ∧
      ∀ location, (next.makeAlong start components).2.node? location =
        (files.makeAlong start components).2.node? location := by
  induction components generalizing files next start with
  | nil => exact ⟨rfl, h⟩
  | cons component rest ih =>
    rw [Files.makeAlong, Files.makeAlong, h]
    split
    · exact ih h _
    · exact ⟨rfl, h⟩
    · split
      · refine ih (fun location ↦ ?_) _
        rw [node?_put, node?_put, h]
      · exact ⟨rfl, h⟩

theorem makeParents (h : files.Rearranged other) (path : String) :
    (other.makeParents path).1 = (files.makeParents path).1 ∧
      ∀ location, (other.makeParents path).2.node? location =
        (files.makeParents path).2.node? location := by
  rw [Files.makeParents, Files.makeParents]
  split
  · exact makeAlong h.node? _ _
  · exact ⟨rfl, h.node?⟩

/-- Whether a map can be saved does not depend on the order either. -/
theorem save (h : files.Rearranged other) (map : SymbolMap) (path : String) :
    (map.save other path).1 = (map.save files path).1 := by
  obtain ⟨hmade, hnode⟩ := h.makeParents path
  rw [SymbolMap.save, SymbolMap.save]
  generalize other.makeParents path = next at hmade hnode ⊢
  generalize files.makeParents path = made at hmade hnode ⊢
  obtain ⟨result, next⟩ := next
  obtain ⟨_, made⟩ := made
  obtain rfl : result = _ := hmade
  have hwrite : (next.write? path map.toText).isSome = (made.write? path map.toText).isSome := by
    rw [write?, write?, locate?_congr hnode]
    cases made.locate? path with
    | none => rfl
    | some location =>
      dsimp only [bind, Option.bind]
      rw [isDirectory_congr hnode]
      split
      · rfl
      · rfl
  cases result with
  | false => rfl
  | true =>
    dsimp only
    generalize next.write? path map.toText = written at hwrite ⊢
    generalize made.write? path map.toText = written' at hwrite ⊢
    cases written with
    | none =>
      cases written' with
      | none => rfl
      | some => cases hwrite
    | some =>
      cases written' with
      | none => cases hwrite
      | some => rfl

end Rearranged

end Files

end DailyBars
