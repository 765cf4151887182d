import DailyBars.Table.Delimited.Lines
import DailyBars.Text.Digits
import DailyBars.Text.Utf8

/-!
# Types of entries

An entry on its own is a truth value, a whole number, a number, or text. The type of a column is
that of its entries if they all have one; whole numbers and numbers together are numbers; anything
else, and a column of nothing, is text.

The digits of all scripts count here, and the long `s` as an `s`, so that an entry may look like a
number or a truth value that cannot be read.
-/

namespace DailyBars.Delimited

/-- Types of entries. -/
inductive EntryType where
  | truth
  | whole
  | real
  | text
deriving DecidableEq

/-- Whether a text is a non-empty run of digits. -/
def isDigits (text : List Char) : Bool :=
  !text.isEmpty && text.all Text.isAnyDigit

/-- Whether a text is a sign that may be absent, and digits. -/
def isExponent (text : List Char) : Bool :=
  isDigits (Text.splitSign text).2

/-- Whether a text, without its sign, is a number with a point or an exponent, or one of the words
for infinity and for no number. -/
def isUnsignedReal (text : List Char) : Bool :=
  let (whole, rest) := Text.spanAnyDigits text
  text == "inf".toList || text == "NaN".toList ||
    match rest with
    | '.' :: rest =>
      let (fraction, rest) := Text.spanAnyDigits rest
      match rest with
      | [] => !whole.isEmpty || !fraction.isEmpty
      | c :: exponent => (c == 'e' || c == 'E') && !fraction.isEmpty && isExponent exponent
    | c :: exponent => (c == 'e' || c == 'E') && !whole.isEmpty && isExponent exponent
    | [] => false

/-- A letter in lower case, a long `s` as an `s`. -/
def foldLetter (c : Char) : Char :=
  if c = '\u017f' then 's' else c.toLower

/-- The type that an entry on its own has. -/
def EntryType.of (text : List Char) : EntryType :=
  let word := text.map foldLetter
  let unsigned := match text with
    | '-' :: rest => rest
    | text => text
  if 2 ≤ text.length ∧ text.head? = some '\x22' ∧ text.getLast? = some '\x22' then .text
  else if word = "true".toList ∨ word = "false".toList then .truth
  else if isUnsignedReal (Text.splitSign text).2 then .real
  else if isDigits unsigned then .whole
  else .text

/-- The type of a column whose entries have some types. -/
def EntryType.join (types : List EntryType) : EntryType :=
  match types with
  | [] => .text
  | first :: rest =>
    if rest.all (· = first) then first
    else if types.all fun type ↦ type = .whole ∨ type = .real then .real
    else .text

/-- The types of the columns, from the lines that are looked at. -/
def columnTypes (width : Nat) (lines : List (List UInt8)) : List EntryType :=
  let records := (lines.filter fun line ↦ !line.isEmpty).map lineCells
  (List.range width).map fun i ↦
    .join <| records.filterMap fun record ↦
      match record[i]? with
      | some cell => if cell.bytes.isEmpty then none else some (.of (Text.lossy cell.inner))
      | none => none

end DailyBars.Delimited
