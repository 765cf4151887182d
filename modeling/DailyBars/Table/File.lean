import DailyBars.Error
import DailyBars.Files
import DailyBars.Table.Delimited
import DailyBars.Text.Basic

/-!
# Table files

The extension of a file, in any case, says what format its table has. Delimited text is read here;
what reads the other format is given (`TableFile.Decoder`). A path to delimited text may start with
`~`, which stands for a directory of the user, where no tables are kept. In a directory the table
files are found by extension and named by their stems in upper case.
-/

namespace DailyBars

/-- Formats of table files. -/
inductive TableFormat where
  | csv
  | parquet
deriving DecidableEq

namespace TableFile

/-- The stem and the extension of a file name: what stands before and after its last point. A point
at the start belongs to the stem. -/
def splitName (name : String) : String × Option String :=
  let reversed := name.toList.reverse
  let ending := reversed.takeWhile (· ≠ '.')
  match reversed.drop ending.length with
  | '.' :: c :: rest =>
    (String.ofList (c :: rest).reverse, some (String.ofList ending.reverse))
  | _ => (name, none)

/-- The format of a file name. -/
def formatOfName? (name : String) : Option TableFormat :=
  match (splitName name).2.map Text.lower with
  | some "csv" => some .csv
  | some "parquet" => some .parquet
  | some "pq" => some .parquet
  | _ => none

/-- The format of the file at a path. -/
def format? (path : String) : Option TableFormat :=
  (Files.fileName? path).bind formatOfName?

/-- Whether the first component of a path stands for a directory of the user. -/
def isOfUser (path : String) : Bool :=
  (path.splitOn "/").head? == some "~"

/-- What tells the table that the content of a file holds. -/
abbrev Decoder : Type := List Text.Piece → Option Table

/-- The table that the file at a path holds in a format. -/
def decode? (parquet : Decoder) (files : Files) (path : String) : TableFormat → Option Table
  | .csv => (if isOfUser path then none else files.content? path).bind Delimited.ofContent?
  | .parquet => (files.content? path).bind parquet

/-- The table in the file at a path. -/
def read (parquet : Decoder) (files : Files) (path : String) : Except StoreError Table :=
  match format? path with
  | none => .error (.ingest path .unsupportedExtension)
  | some format =>
    match decode? parquet files path format with
    | some table => .ok table
    | none => .error (.ingest path .unreadable)

/-- Whether one symbol with its path comes before another or is the same. -/
def pairLe (a b : String × String) : Bool :=
  a.1 < b.1 || (a.1 == b.1 && a.2 ≤ b.2)

/-- The table files in a directory with their symbols, in the order of the symbols. -/
def discover (files : Files) (directory : String) : Except StoreError (List (String × String)) :=
  match files.listing? directory with
  | none => .error (.ingest directory .unreadable)
  | some names =>
    let tables := names.filter fun name ↦
      (formatOfName? name).isSome && Files.isPath (Files.join directory name)
    .ok <| (tables.map fun name ↦
      (Text.upper (splitName name).1, Files.join directory name)).mergeSort pairLe

end TableFile

end DailyBars
