import DailyBars.Toml.Statement

/-!
# TOML documents

The entries of a document are built from its statements in order. A header names the table that the
assignments after it go into.
-/

namespace DailyBars.Toml

/-- A document that is being built: the entries so far, and the path of the current table. -/
structure Draft where
  entries : Entries
  current : List String

/-- The draft after one more statement. -/
def Draft.step (draft : Draft) : Statement → Option Draft
  | .table path key => do
    return ⟨← draft.entries.openTable path key, path ++ [key]⟩
  | .item path key => do
    return ⟨← draft.entries.openItem path key, path ++ [key]⟩
  | .assign path key value => do
    let change (_ : Origin) (inner : Entries) : Option Entries := inner.assign path key value
    return ⟨← draft.entries.edit false change draft.current .header, draft.current⟩

/-- The entries of a document. -/
def ofStatements? (statements : List Statement) : Option (List (String × Value)) := do
  let draft ← statements.foldlM Draft.step ⟨[], []⟩
  return entriesToValues draft.entries

/-- The entries of the document that a text is. -/
def ofText? (text : String) : Option (List (String × Value)) := do
  let text :=
    match text.toList with
    | '\ufeff' :: rest => rest
    | text => text
  ofStatements? (← statements (text.length + 1) text)

end DailyBars.Toml
