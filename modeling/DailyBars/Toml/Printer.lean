import DailyBars.Text.Digits
import DailyBars.Toml.Quoted

/-!
# Writing TOML

A string is written in the first of these forms that needs no escapes: basic, literal, basic on
several lines, literal on several lines; and otherwise with escapes, on several lines if it has a
line feed. The one-line forms hold no line feed; a form on several lines starts with one that does
not count if the string has any. A tab is written as an escape in basic strings, which does not
count as one that is needed.

Keys of letters, digits, underscores and hyphens stand for themselves, other keys are strings on
one line. Arrays of two or more items are written one item on a line.
-/

namespace DailyBars.Toml

/-- Whether a character can only be written as an escape. -/
def needsEscape (c : Char) : Bool :=
  (c.toNat < 0x20 && c != '\t' && c != '\n') || c.toNat == 0x7F

/-- The length of the longest run of a character in a text. -/
def longestRun (mark : Char) (text : List Char) : Nat := go 0 0 text
where
  go (longest current : Nat) : List Char → Nat
    | [] => max longest current
    | c :: rest =>
      if c = mark then go longest (current + 1) rest else go (max longest current) 0 rest

/-- A code point in four hexadecimal digits, in upper case. -/
def hex4 (n : Nat) : List Char :=
  let digits := (Nat.toDigits 16 n).map Char.toUpper
  List.replicate (4 - digits.length) '0' ++ digits

/-- A character of a basic string on one line. -/
def escaped (c : Char) : List Char :=
  match c with
  | '\x08' => ['\\', 'b']
  | '\t' => ['\\', 't']
  | '\n' => ['\\', 'n']
  | '\x0c' => ['\\', 'f']
  | '\r' => ['\\', 'r']
  | '\x22' => ['\\', '\x22']
  | '\\' => ['\\', '\\']
  | c => if needsEscape c then '\\' :: 'u' :: hex4 c.toNat else [c]

/-- The characters of a basic string on several lines; `quotes` is the number of quotes that were
written just before. Every third quote in a row is written as an escape, and so is none of two. -/
def escapedLines (quotes : Nat) : List Char → List Char
  | [] => []
  | c :: rest =>
    if c = '\x22' then
      if quotes < 2 then c :: escapedLines (quotes + 1) rest
      else '\\' :: c :: escapedLines 0 rest
    else if c = '\n' then c :: escapedLines 0 rest
    else escaped c ++ escapedLines 0 rest

def basicText (text : List Char) : List Char :=
  '\x22' :: text.flatMap escaped ++ ['\x22']

def literalText (text : List Char) : List Char :=
  '\x27' :: text ++ ['\x27']

/-- Three quotes on each side, with a line feed after the first ones if the text has any. -/
def inLines (mark : Char) (hasLines : Bool) (text : List Char) : List Char :=
  let marks := [mark, mark, mark]
  marks ++ (if hasLines then ['\n'] else []) ++ text ++ marks

/-- A text as a string. -/
def stringText (text : List Char) : List Char :=
  let hasLines := text.contains '\n'
  let isBare := !text.any needsEscape
  if isBare && !hasLines && !text.contains '\\' && !text.contains '\x22' then basicText text
  else if isBare && !hasLines && !text.contains '\x27' then literalText text
  else if isBare && !text.contains '\\' && longestRun '\x22' text ≤ 2 then
    inLines '\x22' hasLines (escapedLines 0 text)
  else if isBare && longestRun '\x27' text ≤ 2 then inLines '\x27' hasLines text
  else if hasLines then inLines '\x22' true (escapedLines 0 text)
  else basicText text

/-- A text as a key. -/
def keyText (text : List Char) : List Char :=
  let isBare := !text.any fun c ↦ needsEscape c || c == '\n'
  if !text.isEmpty && text.all (fun c ↦ c.isAlphanum || c == '_' || c == '-') then text
  else if isBare && !text.contains '\\' && !text.contains '\x22' then basicText text
  else if isBare && !text.contains '\x27' then literalText text
  else basicText text

/-- An array of items that are written already. -/
def arrayText : List (List Char) → List Char
  | [] => ['[', ']']
  | [item] => '[' :: item ++ [']']
  | items => '[' :: '\n' :: items.flatMap (fun item ↦ "    ".toList ++ item ++ [',', '\n']) ++ [']']

/-- A line that assigns a value, written already, to a key. -/
def assignText (key : String) (value : List Char) : List Char :=
  keyText key.toList ++ [' ', '=', ' '] ++ value ++ ['\n']

/-- A line with the header of a table. -/
def headerText (key : String) : List Char :=
  '[' :: keyText key.toList ++ [']', '\n']

/-- A 64-bit number. -/
def integerText (n : Int64) : List Char :=
  (Text.int64Text n).toList

end DailyBars.Toml
