import DailyBars.Table.Basic
import DailyBars.Table.Delimited.EntryType

/-!
# Values of entries

A reader of entries answers `none` for one that it cannot read, and `some none` for one that is
missing. A carriage return before the end of an entry does not belong to it. Quotes around a text
have to be balanced, and doubled ones in it stand for one; of any other entry that starts with a
quote, the first and the last byte are left out.
-/

namespace DailyBars.Delimited

/-- A text with doubled quotes made single and single quotes left out. -/
def unquote : List Char → List Char
  | [] => []
  | '\x22' :: '\x22' :: rest => '\x22' :: unquote rest
  | c :: rest => if c = '\x22' then unquote rest else c :: unquote rest

/-- A text entry. -/
def readText (cell : Cell) : Option (Option String) :=
  let bytes := dropReturn cell.bytes
  let text := Text.lossy bytes
  if text.isEmpty then some none
  else if cell.isQuoted then
    if 1 < text.length ∧ text.getLast? = some '\x22' then
      some (some (String.ofList (unquote text.tail.dropLast)))
    else none
  else some (some (String.ofList text))

/-- The content of an entry that is no text: without its quotes. -/
def bareText? (cell : Cell) : Option (List Char) :=
  let bytes := dropReturn cell.bytes
  if cell.isQuoted then
    if 2 ≤ bytes.length then some (Text.lossy bytes.tail.dropLast) else none
  else some (Text.lossy bytes)

/-- A truth value. -/
def readTruth (cell : Cell) : Option (Option Bool) := do
  let text ← bareText? cell
  let word := text.map Char.toLower
  if text.isEmpty then some none
  else if word = "true".toList then some (some true)
  else if word = "false".toList then some (some false)
  else none

/-- A number, which spaces and tabs may stand before. -/
def readNumber {α : Type} (number? : List Char → Option α) (cell : Cell) :
    Option (Option α) := do
  let text ← bareText? cell
  let rest := text.dropWhile fun c ↦ c = ' ' || c = '\t'
  if rest.isEmpty then some none
  else (number? rest).map some

/-- A whole number of 64 bits. -/
def int64? (text : List Char) : Option Int :=
  (Text.integer? text).filter fun n ↦ (Text.int64? n).isSome

/-- The entries of one column, `none` for a row that is too short. -/
def readColumn {α : Type} (read : Cell → Option (Option α)) (entries : List (Option Cell)) :
    Option (List (Option α)) :=
  entries.mapM fun entry ↦
    match entry with
    | none => some none
    | some cell => read cell

/-- A column of a type. -/
def columnData? (type : EntryType) (entries : List (Option Cell)) : Option ColumnData :=
  match type with
  | .text => (readColumn readText entries).map .text
  | .truth => (readColumn readTruth entries).map .truth
  | .whole => (readColumn (readNumber int64?) entries).map (.whole .int64)
  | .real => (readColumn (readNumber Binary64.ofText?) entries).map (.real .double)

end DailyBars.Delimited
