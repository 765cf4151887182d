import DailyBars.Toml.Document
import Mathlib

/-!
# Documents of one table

A document that assigns values to keys, opens a table and assigns values in it has these values and
this table as its entries, in the order of the lines (`Toml.ofStatements?_table`). No key may be
assigned to twice. The lines before the header and the lines after it go into different entries but
in the same way, so **one induction over the values serves both**: it only asks for what one line
does.
-/

namespace DailyBars.Toml

/-- Values as entries of a table that is being built. -/
def valueEntries (values : List (String × Value)) : Entries :=
  values.map fun entry ↦ (entry.1, .value entry.2)

/-- The statements that assign values to their keys. -/
def assignments (values : List (String × Value)) : List Statement :=
  values.map fun entry ↦ .assign [] entry.1 entry.2

theorem node?_append {before : Entries} {key : String} (h : ∀ entry ∈ before, entry.1 ≠ key)
    (entries : Entries) : Entries.node? (before ++ entries) key = Entries.node? entries key := by
  rw [Entries.node?, List.find?_append,
    List.find?_eq_none.2 fun entry hentry ↦ by simpa using h entry hentry]
  rfl

theorem put_append {before : Entries} {key : String} (h : ∀ entry ∈ before, entry.1 ≠ key)
    (entries : Entries) (node : Node) :
    Entries.put (before ++ entries) key node = before ++ Entries.put entries key node := by
  induction before with
  | nil => rfl
  | cons first rest ih =>
    obtain ⟨hfirst, hrest⟩ := List.forall_mem_cons.1 h
    rw [List.cons_append, Entries.put, if_neg (by simpa using hfirst), ih hrest]
    rfl

/-- A value with a new key goes to the end. -/
theorem assign_of_forall_ne {entries : Entries} {key : String}
    (h : ∀ entry ∈ entries, entry.1 ≠ key) (value : Value) :
    Entries.assign entries [] key value = some (entries ++ [(key, .value value)]) := by
  have hnode := node?_append h []
  have hput := put_append h [] (.value value)
  rw [List.append_nil] at hnode hput
  rw [Entries.assign, Entries.edit, hnode]
  exact congrArg some hput

/-- Before all headers, values become entries of the document. -/
theorem Draft.step_assign {entries : Entries} {key : String}
    (h : ∀ entry ∈ entries, entry.1 ≠ key) (value : Value) :
    Draft.step ⟨entries, []⟩ (.assign [] key value) =
      some ⟨entries ++ [(key, .value value)], []⟩ := by
  rw [Draft.step, Entries.edit, assign_of_forall_ne h]
  rfl

/-- After a header, values become entries of its table. -/
theorem Draft.step_assign_table {before inner : Entries} {name key : String}
    (hname : ∀ entry ∈ before, entry.1 ≠ name) (hkey : ∀ entry ∈ inner, entry.1 ≠ key)
    (value : Value) :
    Draft.step ⟨before ++ [(name, .table .header inner)], [name]⟩ (.assign [] key value) =
      some ⟨before ++ [(name, .table .header (inner ++ [(key, .value value)]))], [name]⟩ := by
  have hnode : Entries.node? (before ++ [(name, .table .header inner)]) name =
      some (.table .header inner) := by
    rw [node?_append hname]
    simp [Entries.node?]
  rw [Draft.step, Entries.edit, hnode]
  dsimp only
  rw [if_neg (by simp), Entries.edit, assign_of_forall_ne hkey]
  show some (Draft.mk (Entries.put (before ++ [(name, .table .header inner)]) name
    (.table .header (inner ++ [(key, .value value)]))) [name]) = _
  rw [put_append hname, Entries.put, if_pos (beq_iff_eq.2 rfl)]

/-- **Values with keys of their own are put one behind the other**, wherever they go. -/
theorem foldlM_step_assignments (draft : Entries → Draft)
    (hstep : ∀ {entries : Entries} {key : String}, (∀ entry ∈ entries, entry.1 ≠ key) →
      ∀ value, (draft entries).step (.assign [] key value) =
        some (draft (entries ++ [(key, .value value)])))
    {values : List (String × Value)} (hkeys : (values.map (·.1)).Nodup) :
    (assignments values).foldlM Draft.step (draft []) = some (draft (valueEntries values)) := by
  induction values using List.reverseRecOn with
  | nil => rfl
  | append_singleton values last ih =>
    rw [List.map_append, List.nodup_append] at hkeys
    have hnew : ∀ entry ∈ valueEntries values, entry.1 ≠ last.1 := by
      intro entry hentry
      obtain ⟨found, hfound, rfl⟩ := List.mem_map.1 hentry
      exact hkeys.2.2 _ (List.mem_map_of_mem hfound) _ (List.mem_singleton.2 rfl)
    rw [assignments, List.map_append, List.foldlM_append, ← assignments, ih hkeys.1]
    show ((draft (valueEntries values)).step (.assign [] last.1 last.2)).bind some = _
    rw [hstep hnew, valueEntries, valueEntries, List.map_append]
    rfl

/-- The finished values of entries that are values. -/
theorem entriesToValues_append (values : List (String × Value)) (rest : Entries) :
    entriesToValues (valueEntries values ++ rest) = values ++ entriesToValues rest := by
  induction values with
  | nil => rfl
  | cons first values ih =>
    rw [valueEntries, List.map_cons, List.cons_append, entriesToValues, Node.toValue,
      ← valueEntries, ih]
    rfl

/-- **A document of values and one table after them reads back** as these values and this table, if
no key has two values. -/
theorem ofStatements?_table {values inner : List (String × Value)} {name : String}
    (hvalues : (values.map (·.1)).Nodup) (hname : name ∉ values.map (·.1))
    (hinner : (inner.map (·.1)).Nodup) :
    ofStatements? (assignments values ++ .table [] name :: assignments inner) =
      some (values ++ [(name, .table inner)]) := by
  have hnew : ∀ entry ∈ valueEntries values, entry.1 ≠ name := by
    intro entry hentry
    obtain ⟨found, hfound, rfl⟩ := List.mem_map.1 hentry
    rintro rfl
    exact hname (List.mem_map_of_mem hfound)
  have hopen : Draft.step ⟨valueEntries values, []⟩ (.table [] name) =
      some ⟨valueEntries values ++ [(name, .table .header [])], [name]⟩ := by
    have hnode := node?_append hnew []
    have hput := put_append hnew [] (.table .header [])
    rw [List.append_nil] at hnode hput
    rw [Draft.step, Entries.openTable, Entries.edit, hnode]
    exact congrArg (fun entries ↦ some (Draft.mk entries [name])) hput
  have hfold : (assignments values ++ .table [] name :: assignments inner).foldlM Draft.step
      ⟨[], []⟩ = some
        ⟨valueEntries values ++ [(name, .table .header (valueEntries inner))], [name]⟩ := by
    rw [List.foldlM_append,
      foldlM_step_assignments (fun entries ↦ ⟨entries, []⟩) Draft.step_assign hvalues,
      Option.bind_eq_bind, Option.bind_some, List.foldlM_cons, hopen]
    exact foldlM_step_assignments _ (Draft.step_assign_table hnew) hinner
  rw [ofStatements?, hfold]
  show some (entriesToValues (valueEntries values ++ [(name, .table .header _)])) = _
  rw [entriesToValues_append, entriesToValues, Node.toValue, entriesToValues,
    ← List.append_nil (valueEntries inner), entriesToValues_append, entriesToValues,
    List.append_nil]

end DailyBars.Toml
