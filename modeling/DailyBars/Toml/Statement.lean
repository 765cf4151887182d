import DailyBars.Toml.Quoted
import DailyBars.Toml.Scalar
import DailyBars.Toml.Table

/-!
# TOML statements

A document is a list of statements, one on a line: a header in single or double brackets, or a path
of keys with a value. Blanks may stand around the parts of a statement, and a comment may end a
line. Arrays may spread over lines and end in a comma, tables in braces may not.

Arrays and tables in braces may be nested 79 deep, and a path may have 79 keys.
-/

namespace DailyBars.Toml

/-- One line of a document. -/
inductive Statement where
  /-- A header, its last key apart. -/
  | table (path : List String) (key : String)
  /-- A header of an array of tables, its last key apart. -/
  | item (path : List String) (key : String)
  /-- A value for a path of keys, the last key apart. -/
  | assign (path : List String) (key : String) (value : Value)

/-- A reader of the front of a text. -/
abbrev Reader (α : Type) : Type := List Char → Option (α × List Char)

/-- The depth at which values are nested too deep, and the length at which a path is too long. -/
def nestingLimit : Nat := 80

def skipSpaces (text : List Char) : List Char :=
  text.dropWhile isSpace

/-- A text without the comment at its start; none if the comment holds a control character. -/
def skipComment (text : List Char) : Option (List Char) :=
  match text with
  | '#' :: rest =>
    match rest.dropWhile isPlain with
    | [] => some []
    | '\n' :: after => some ('\n' :: after)
    | '\r' :: '\n' :: after => some ('\r' :: '\n' :: after)
    | _ => none
  | text => some text

/-- A text without blanks, comments and line ends at its start. -/
def skipLines (text : List Char) : Option (List Char) := go text.length text
where
  go : Nat → List Char → Option (List Char)
    | 0, text => skipComment (skipSpaces text)
    | fuel + 1, text =>
      match skipComment (skipSpaces text) with
      | some ('\n' :: rest) => go fuel rest
      | some ('\r' :: '\n' :: rest) => go fuel rest
      | rest => rest

/-! ### Keys -/

/-- Whether a character may stand in a key without quotes. -/
def isKeyChar (c : Char) : Bool :=
  c.isAlphanum || c == '_' || c == '-'

/-- A key. -/
def key : Reader String
  | '\x22' :: rest => (basic rest).map fun (text, after) ↦ (String.ofList text, after)
  | '\x27' :: rest => (literal rest).map fun (text, after) ↦ (String.ofList text, after)
  | text =>
    let word := text.takeWhile isKeyChar
    if word.isEmpty then none else some (String.ofList word, text.dropWhile isKeyChar)

/-- Keys with points between them, the last one apart, and blanks around each. -/
def path : Reader (List String × String) := fun text ↦ go (nestingLimit - 1) text
where
  go : Nat → Reader (List String × String)
    | 0, _ => none
    | fuel + 1, text => do
      let (first, rest) ← key (skipSpaces text)
      match skipSpaces rest with
      | '.' :: rest =>
        let ((keys, last), rest) ← go fuel rest
        return ((first :: keys, last), rest)
      | rest => return (([], first), rest)

/-! ### Values -/

/-- The items of an array and its closing bracket. -/
def items (value : Reader Value) : Nat → Reader (List Value)
  | 0, _ => none
  | fuel + 1, text => do
    match ← skipLines text with
    | ']' :: rest => return ([], rest)
    | text =>
      let (item, rest) ← value text
      match ← skipLines rest with
      | ']' :: rest => return ([item], rest)
      | ',' :: rest =>
        let (more, rest) ← items value fuel rest
        return (item :: more, rest)
      | _ => none

/-- A path of keys and its value. -/
def assignment (value : Reader Value) : Reader (List String × String × Value) := fun text ↦ do
  let ((keys, last), rest) ← path text
  let rest ← mark? '=' rest
  let (value, rest) ← value (skipSpaces rest)
  return ((keys, last, value), rest)

/-- The entries of a table in braces and its closing brace. -/
def fields (value : Reader Value) : Nat → Reader (List (List String × String × Value))
  | 0, _ => none
  | fuel + 1, text => do
    let (field, rest) ← assignment value text
    match skipSpaces rest with
    | '\x7d' :: rest => return ([field], rest)
    | ',' :: rest =>
      let (more, rest) ← fields value fuel rest
      return (field :: more, rest)
    | _ => none

/-- The table of entries in braces. -/
def fieldsToTable (fields : List (List String × String × Value)) : Option Value :=
  (fields.foldlM (fun entries (path, key, value) ↦ Entries.assign entries path key value) []).map
    fun entries ↦ .table (entriesToValues entries)

/-- A value that is nested at most `depth` deep. -/
def value : Nat → Reader Value
  | depth, text =>
    match text with
    | '\x22' :: _ => (string? text).map fun (content, rest) ↦ (.text (String.ofList content), rest)
    | '\x27' :: _ => (string? text).map fun (content, rest) ↦ (.text (String.ofList content), rest)
    | '[' :: rest =>
      match depth with
      | 0 => none
      | depth + 1 =>
        (items (value depth) text.length rest).map fun (items, rest) ↦ (.array items, rest)
    | '\x7b' :: rest =>
      match depth with
      | 0 => none
      | depth + 1 =>
        match skipSpaces rest with
        | '\x7d' :: rest => some (.table [], rest)
        | rest => do
          let (fields, rest) ← fields (value depth) text.length rest
          return (← fieldsToTable fields, rest)
    | text =>
      let (word, rest) := splitWord text
      (scalar? word).map fun value ↦ (value, rest)

/-! ### Lines -/

/-- A statement, which does not have to fill its line. -/
def statement : Reader Statement
  | '[' :: '[' :: rest => do
    let ((keys, last), rest) ← path rest
    match rest with
    | ']' :: ']' :: rest => return (.item keys last, rest)
    | _ => none
  | '[' :: rest => do
    let ((keys, last), rest) ← path rest
    match rest with
    | ']' :: rest => return (.table keys last, rest)
    | _ => none
  | text => do
    let ((keys, last, value), rest) ← assignment (value (nestingLimit - 1)) text
    return (.assign keys last value, rest)

/-- The statements of a text. -/
def statements : Nat → List Char → Option (List Statement)
  | 0, _ => none
  | fuel + 1, text => do
    match ← skipLines text with
    | [] => return []
    | text =>
      let (first, rest) ← statement text
      match ← skipComment (skipSpaces rest) with
      | [] => return [first]
      | '\n' :: rest => return first :: (← statements fuel rest)
      | '\r' :: '\n' :: rest => return first :: (← statements fuel rest)
      | _ => none

end DailyBars.Toml
