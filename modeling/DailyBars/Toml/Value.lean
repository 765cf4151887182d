import DailyBars.Binary64.Basic

/-!
# TOML values

The values of a TOML document. Of a date or a time only its text is kept.
-/

namespace DailyBars.Toml

/-- A value of a document. -/
inductive Value where
  | text (content : String)
  | integer (n : Int64)
  | real (x : Binary64)
  | truth (value : Bool)
  | time (content : String)
  | array (items : List Value)
  | table (entries : List (String × Value))

/-- The entry of a key. -/
def entry? (entries : List (String × Value)) (key : String) : Option Value :=
  (entries.find? fun entry ↦ entry.1 == key).map (·.2)

/-- What the value of a key is read as; `missing` stands for a key that is not there. -/
def field? {α : Type} (entries : List (String × Value)) (key : String)
    (read : Value → Option α) (missing : Option α) : Option α :=
  match entry? entries key with
  | some value => read value
  | none => missing

/-- The text of a text value. -/
def Value.text? : Value → Option String
  | .text content => some content
  | _ => none

/-- The number of an integer value. -/
def Value.integer? : Value → Option Int64
  | .integer n => some n
  | _ => none

/-- The items of an array value. -/
def Value.items? : Value → Option (List Value)
  | .array items => some items
  | _ => none

/-- The entries of a table value. -/
def Value.entries? : Value → Option (List (String × Value))
  | .table entries => some entries
  | _ => none

end DailyBars.Toml
