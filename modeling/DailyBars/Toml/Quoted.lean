import DailyBars.Text.Digits

/-!
# TOML strings

The four forms of a string: basic and literal, each on one line or on several. Basic strings know
escapes, literal ones do not. On several lines a string ends at three quotes in a row, of which up
to two may precede as part of the text; a line feed right after the opening quotes does not count,
and a line end is one line feed however it is written.

Each reader takes the text after the opening quotes and returns what the string holds with the text
after its closing quotes.
-/

namespace DailyBars.Toml

/-- Whether a character may stand for itself in a string or a comment: a tab, or anything but the
controls below the space and delete. -/
def isPlain (c : Char) : Bool :=
  c == '\t' || (0x20 ≤ c.toNat && c.toNat != 0x7F)

/-- A blank within a line. -/
def isSpace (c : Char) : Bool :=
  c == ' ' || c == '\t'

/-- The character with a code point in hexadecimal. -/
def codePoint? (digits : List Char) : Option Char := do
  let values ← digits.mapM Text.hexDigit?
  let n := values.foldl (fun n digit ↦ 16 * n + digit) 0
  if h : n.isValidChar then some (Char.ofNatAux n h) else none

/-- The character that a letter stands for after a backslash. -/
def escape? (c : Char) : Option Char :=
  match c with
  | 'b' => some '\x08'
  | 't' => some '\t'
  | 'n' => some '\n'
  | 'f' => some '\x0c'
  | 'r' => some '\r'
  | '\x22' => some '\x22'
  | '\\' => some '\\'
  | _ => none

/-- A character put before what is read after it. -/
def keep (c : Char) (rest : Option (List Char × List Char)) : Option (List Char × List Char) :=
  rest.map fun (text, after) ↦ (c :: text, after)

/-- A character, if there is one, put before what is read after it. -/
def keep? (c : Option Char) (rest : Option (List Char × List Char)) :
    Option (List Char × List Char) :=
  c.bind fun c ↦ keep c rest

/-- The rest of a basic string on one line. -/
def basic : List Char → Option (List Char × List Char)
  | [] => none
  | '\x22' :: rest => some ([], rest)
  | '\\' :: 'u' :: a :: b :: c :: d :: rest => keep? (codePoint? [a, b, c, d]) (basic rest)
  | '\\' :: 'U' :: a :: b :: c :: d :: e :: f :: g :: h :: rest =>
    keep? (codePoint? [a, b, c, d, e, f, g, h]) (basic rest)
  | '\\' :: c :: rest => keep? (escape? c) (basic rest)
  | c :: rest => if c ≠ '\\' ∧ isPlain c then keep c (basic rest) else none

/-- The rest of a literal string on one line. -/
def literal : List Char → Option (List Char × List Char)
  | [] => none
  | c :: rest =>
    if c = '\x27' then some ([], rest)
    else if isPlain c then keep c (literal rest)
    else none

/-- A text without the line end at its start. -/
def dropLineEnd : List Char → List Char
  | '\n' :: rest => rest
  | '\r' :: '\n' :: rest => rest
  | text => text

/-- A text without the blanks and line ends at its start. -/
def dropBlankLines : List Char → List Char
  | [] => []
  | '\r' :: '\n' :: rest => dropBlankLines rest
  | c :: rest => if isSpace c ∨ c = '\n' then dropBlankLines rest else c :: rest

theorem length_dropBlankLines_le (text : List Char) :
    (dropBlankLines text).length ≤ text.length := by
  fun_induction dropBlankLines text with
  | case1 => exact Nat.le_refl _
  | case2 rest ih => simp only [List.length_cons]; omega
  | case3 c rest h hc ih => simp only [List.length_cons]; omega
  | case4 => exact Nat.le_refl _

/-- Whether only blanks stand before the next line end. -/
def isBlankLine (text : List Char) : Bool :=
  match text.dropWhile isSpace with
  | '\n' :: _ => true
  | '\r' :: '\n' :: _ => true
  | _ => false

/-- The rest of a basic string on several lines. A backslash at the end of a line leaves out the
line end and all blanks and line ends after it. -/
def basicLines (text : List Char) : Option (List Char × List Char) :=
  match text with
  | [] => none
  | '\x22' :: '\x22' :: '\x22' :: '\x22' :: '\x22' :: rest => some (['\x22', '\x22'], rest)
  | '\x22' :: '\x22' :: '\x22' :: '\x22' :: rest => some (['\x22'], rest)
  | '\x22' :: '\x22' :: '\x22' :: rest => some ([], rest)
  | '\\' :: 'u' :: a :: b :: c :: d :: rest => keep? (codePoint? [a, b, c, d]) (basicLines rest)
  | '\\' :: 'U' :: a :: b :: c :: d :: e :: f :: g :: h :: rest =>
    keep? (codePoint? [a, b, c, d, e, f, g, h]) (basicLines rest)
  | '\\' :: c :: rest =>
    if isBlankLine (c :: rest) then basicLines (dropBlankLines (c :: rest))
    else keep? (escape? c) (basicLines rest)
  | '\n' :: rest => keep '\n' (basicLines rest)
  | '\r' :: '\n' :: rest => keep '\n' (basicLines rest)
  | c :: rest => if c ≠ '\\' ∧ isPlain c then keep c (basicLines rest) else none
termination_by text.length
decreasing_by
  all_goals first
    | (have hle := length_dropBlankLines_le (c :: rest)
       simp only [List.length_cons] at hle ⊢
       omega)
    | (simp only [List.length_cons]; omega)

/-- The rest of a literal string on several lines. -/
def literalLines : List Char → Option (List Char × List Char)
  | [] => none
  | '\x27' :: '\x27' :: '\x27' :: '\x27' :: '\x27' :: rest => some (['\x27', '\x27'], rest)
  | '\x27' :: '\x27' :: '\x27' :: '\x27' :: rest => some (['\x27'], rest)
  | '\x27' :: '\x27' :: '\x27' :: rest => some ([], rest)
  | '\n' :: rest => keep '\n' (literalLines rest)
  | '\r' :: '\n' :: rest => keep '\n' (literalLines rest)
  | c :: rest => if isPlain c then keep c (literalLines rest) else none

/-- A string of any form, with its opening quotes. -/
def string? : List Char → Option (List Char × List Char)
  | '\x22' :: '\x22' :: '\x22' :: rest => basicLines (dropLineEnd rest)
  | '\x22' :: rest => basic rest
  | '\x27' :: '\x27' :: '\x27' :: rest => literalLines (dropLineEnd rest)
  | '\x27' :: rest => literal rest
  | _ => none

end DailyBars.Toml
