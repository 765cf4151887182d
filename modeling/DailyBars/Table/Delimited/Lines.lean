import DailyBars.Table.Delimited.Cells

/-!
# Lines of delimited text

A line feed between an odd and an even quote does not end a line. Here every quote of a text counts,
also one inside an entry that does not start with one.

A long text is read in blocks: within a window, everything up to the last line end. So where the
quotes of a text are not balanced, a block may end inside of an entry.
-/

namespace DailyBars.Delimited

/-- Whether a byte may end a line. -/
def isLineEnd (byte : UInt8) : Bool :=
  byte == lineFeed || byte == carriageReturn

/-- Whether the text after a byte stands between an odd and an even quote. -/
def quotedAfter (inQuotes : Bool) (byte : UInt8) : Bool :=
  if byte = quote then !inQuotes else inQuotes

/-- The rest of the line that a text is in, and the text after it. -/
def splitLine (inQuotes : Bool) : List UInt8 → List UInt8 × List UInt8
  | [] => ([], [])
  | byte :: rest =>
    if byte = lineFeed ∧ inQuotes = false then ([], rest)
    else
      let (line, after) := splitLine (quotedAfter inQuotes byte) rest
      (byte :: line, after)

/-- The text after its first line. -/
def afterLine (text : List UInt8) : List UInt8 :=
  (splitLine false text).2

/-- The first `count` lines of a text. -/
def firstLines : Nat → List UInt8 → List (List UInt8)
  | 0, _ => []
  | count + 1, text =>
    if text.isEmpty then []
    else
      let (line, after) := splitLine false text
      line :: firstLines count after

/-- A line without a carriage return at its end, unless it is nothing else. -/
def lineText (line : List UInt8) : List UInt8 :=
  if line.length ≤ 1 then line else dropReturn line

/-- The entries of a line, up to the first line feed that its entries do not hold. -/
def lineCells (line : List UInt8) : List Cell :=
  (rows (lineText line)).headD []

/-! ### Blocks -/

/-- The position after the last line end of a text; `read` bytes came before it, and `last` is the
answer if it has no line end. -/
def lastLineEnd (inQuotes : Bool) (read last : Nat) : List UInt8 → Nat
  | [] => last
  | byte :: rest =>
    if byte = lineFeed ∧ inQuotes = false then lastLineEnd inQuotes (read + 1) (read + 1) rest
    else lastLineEnd (quotedAfter inQuotes byte) (read + 1) last rest

/-- The blocks of a text. A window without a line end is doubled, for what follows too; a text
without one in its last window is a block. -/
def blocks (window : Nat) (text : List UInt8) : List (List UInt8) :=
  let length := lastLineEnd false 0 0 (text.take window)
  if text = [] then []
  else if 0 < length then text.take length :: blocks window (text.drop length)
  else if 0 < window ∧ window < text.length then blocks (2 * window) text
  else [text]
termination_by (text.length, text.length - window)
decreasing_by
  · have := List.length_pos_iff.2 ‹text ≠ []›
    apply Prod.Lex.left
    rw [List.length_drop]
    omega
  · apply Prod.Lex.right
    omega

end DailyBars.Delimited
