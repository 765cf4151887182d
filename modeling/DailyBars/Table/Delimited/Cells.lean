/-!
# Entries of delimited text

A text is cut into entries by commas and line feeds. An entry that starts with a quote runs on until
its quotes are balanced, commas and line feeds included; a quote further inside an entry stands for
itself. Entries are sequences of bytes: whether they are text is asked later, column by column.
-/

namespace DailyBars.Delimited

def comma : UInt8 := 0x2C

def quote : UInt8 := 0x22

def lineFeed : UInt8 := 0x0A

def carriageReturn : UInt8 := 0x0D

/-- What ends an entry. -/
inductive Stop where
  | comma
  | lineEnd
  | textEnd
deriving DecidableEq

/-- An entry as it is written. -/
structure Cell where
  bytes : List UInt8
  /-- The entry starts with a quote. -/
  isQuoted : Bool
  stop : Stop
deriving DecidableEq

/-- Where a reader of entries is. -/
inductive Place where
  /-- Before a row. -/
  | row
  /-- Before an entry that is not the first of its row. -/
  | entry
  /-- In an entry that does not start with a quote. -/
  | plain
  /-- In an entry that starts with a quote, after an odd number of quotes. -/
  | opened
  /-- In an entry that starts with a quote, after an even number of quotes. -/
  | closed
deriving DecidableEq

def Place.isQuoted (place : Place) : Bool :=
  place == opened || place == closed

/-- The place after a byte that ends no entry. -/
def Place.next (place : Place) (byte : UInt8) : Place :=
  match place with
  | row | entry => if byte = quote then opened else plain
  | plain => plain
  | opened => if byte = quote then closed else opened
  | closed => if byte = quote then opened else closed

/-- The entries of a text. The entry that is being read is given in reverse. -/
def cells (place : Place) (entry : List UInt8) : List UInt8 → List Cell
  | [] => if place = .row then [] else [⟨entry.reverse, place.isQuoted, .textEnd⟩]
  | byte :: rest =>
    if place ≠ .opened ∧ byte = comma then
      ⟨entry.reverse, place.isQuoted, .comma⟩ :: cells .entry [] rest
    else if place ≠ .opened ∧ byte = lineFeed then
      ⟨entry.reverse, place.isQuoted, .lineEnd⟩ :: cells .row [] rest
    else cells (place.next byte) (byte :: entry) rest

/-- Entries grouped into rows. -/
def group : List Cell → List (List Cell)
  | [] => []
  | cell :: rest =>
    if cell.stop = .comma then
      match group rest with
      | [] => [[cell]]
      | row :: others => (cell :: row) :: others
    else [cell] :: group rest

/-- The rows of a text. -/
def rows (text : List UInt8) : List (List Cell) :=
  group (cells .row [] text)

/-- What stands between the first and the last byte of an entry that starts with a quote, and all of
any other entry. -/
def Cell.inner (cell : Cell) : List UInt8 :=
  if cell.isQuoted && 2 ≤ cell.bytes.length then cell.bytes.tail.dropLast else cell.bytes

/-- A text without a carriage return at its end. -/
def dropReturn (text : List UInt8) : List UInt8 :=
  if text.getLast? = some carriageReturn then text.dropLast else text

end DailyBars.Delimited
