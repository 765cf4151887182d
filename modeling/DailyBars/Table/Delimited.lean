import DailyBars.Table.Delimited.Entry

/-!
# Tables from delimited text

The first line of a text names the columns, line ends before it not counted; every further line is
a row, with commas between the entries. Rows with too few entries are filled up with missing ones,
rows with too many make the text unreadable. An empty line is a row too, so in a text of one column
the line ends before the header are not passed over when the rows are read: the first line, and no
more, is left out.

The types of the columns are found from the first hundred lines after the header. An entry further
down that does not fit the type of its column makes the text unreadable, and so does a byte that is
part of no character, if any column is text. Names are read lossily. A file that starts as
compressed data does is not read.
-/

namespace DailyBars.Delimited

/-- The number of lines from which types are found. -/
def sampleSize : Nat := 100

/-- The size of the first window in which a block is looked for. -/
def blockSize : Nat := 4096

/-- The names with a number added to each that came before. -/
def distinctNames : List String → List String → List String
  | _, [] => []
  | earlier, name :: rest =>
    let count := earlier.count name
    (if count = 0 then name else s!"{name}_duplicated_{count - 1}") ::
      distinctNames (name :: earlier) rest

/-- The names in a header line. -/
def headerNames (line : List UInt8) : List String :=
  let entries := lineCells line
  let entries := if entries.isEmpty then [⟨[], false, .textEnd⟩] else entries
  distinctNames [] (entries.map fun cell ↦ String.ofList (Text.lossy cell.inner))

/-- Whether a row fits a number of columns. One comma too many is overlooked at the very end of a
text. -/
def fits (width : Nat) (row : List Cell) : Bool :=
  row.length ≤ width ||
    (row.length == width + 1 && row.getLast? == some ⟨[], false, .textEnd⟩)

/-- A text that is one line, ended. -/
def ended (text : List UInt8) : List UInt8 :=
  if text.contains lineFeed then text else text ++ [lineFeed]

/-- The table of a text. -/
def ofBytes? (bytes : List UInt8) : Option Table := do
  let text := bytes.dropWhile isLineEnd
  if text.isEmpty then none
  let (header, sample) := splitLine false (ended text)
  let names := headerNames header
  let types := columnTypes names.length (firstLines sampleSize sample)
  let body := afterLine (if 1 < names.length then text else bytes)
  if types.contains .text && !Text.isWhole body then none
  let rows := (blocks blockSize body).flatMap rows
  if !rows.all (fits names.length) then none
  let rows := rows.map List.toArray
  let columns ← (names.zip types).zipIdx.mapM fun ((name, type), i) ↦
    (columnData? type (rows.map fun row ↦ row[i]?)).map (Column.mk name)
  Table.ofColumns? columns

/-- The first bytes of compressed data. -/
def compressedMarks : List (List UInt8) :=
  [[0x1F, 0x8B], [0x78, 0x01], [0x78, 0x9C], [0x78, 0xDA], [0x28, 0xB5, 0x2F, 0xFD]]

/-- Whether some bytes, four at least, start as compressed data does. -/
def isCompressed (bytes : List UInt8) : Bool :=
  4 ≤ bytes.length && compressedMarks.any fun mark ↦ mark.isPrefixOf bytes

/-- The table of the content of a file, without the byte-order mark that may start it. -/
def ofContent? (content : List Text.Piece) : Option Table :=
  if isCompressed (Text.encode content) then none
  else ofBytes? (Text.encode (Text.dropMark content))

end DailyBars.Delimited
