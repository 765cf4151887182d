import DailyBars.Day.Civil
import DailyBars.Text.Basic
import DailyBars.Text.Digits

/-!
# Days as text

A day is written `YYYY-MM-DD`. A year outside 0 to 9999 carries a sign and has at least four
digits, so that no two days share a text.

Reading is more lenient than writing: blanks may stand before each number, months and days may
have one digit, and a signed year may have any number of digits. A number is checked against its
own range when it is read, the date as a whole only once the text is used up.
-/

namespace DailyBars

/-- A year in at least four digits, with a sign when it is outside 0 to 9999. -/
def yearChars (year : Int) : List Char :=
  if year < 0 then '-' :: Text.padded 4 year.natAbs
  else if year ≤ 9999 then Text.padded 4 year.natAbs
  else '+' :: Text.padded 4 year.natAbs

/-- The characters of a civil date. -/
def CivilDate.chars (date : CivilDate) : List Char :=
  yearChars date.year ++ '-' :: Text.padded 2 date.month ++ '-' :: Text.padded 2 date.day

namespace Day

/-- The text of a day. -/
def text (day : Day) : String :=
  String.ofList day.civil.chars

/-- Whether one day's text comes before another's or is the same. Within the years 0 to 9999 this
is the order of the days. -/
def textLe (a b : Day) : Bool :=
  a.text ≤ b.text

theorem textLe_total (a b : Day) : (textLe a b || textLe b a) = true := by
  simpa [textLe] using String.le_total a.text b.text

theorem textLe_trans {a b c : Day} (hab : textLe a b = true) (hbc : textLe b c = true) :
    textLe a c = true := by
  simp only [textLe, decide_eq_true_eq] at *
  exact String.le_trans hab hbc

/-- Days in square brackets. -/
def listText (days : List Day) : String :=
  "[" ++ ", ".intercalate (days.map text) ++ "]"

/-! ### Reading -/

/-- Why a text is not a day. -/
inductive Fault where
  /-- A character that cannot stand where it does. -/
  | invalid
  /-- The text ends too early. -/
  | premature
  /-- A number, or the date as a whole, is not in the calendar. -/
  | outOfRange
  /-- Characters after the date. -/
  | trailing
deriving DecidableEq

def Fault.message : Fault → String
  | invalid => "input contains invalid characters"
  | premature => "premature end of input"
  | outOfRange => "input is out of range"
  | trailing => "trailing input"

/-- A number of at least one digit; `digits` splits the digits off the text. -/
def readNumber (digits : List Char → List Char × List Char) (text : List Char) :
    Except Fault (Nat × List Char) :=
  match digits text with
  | ([], []) => .error .premature
  | ([], _ :: _) => .error .invalid
  | (number, rest) => .ok (Text.ofDigits number, rest)

/-- A year: a sign and any number of digits, or at most four digits. -/
def readYear (text : List Char) : Except Fault (Int × List Char) := do
  let (year, rest) ←
    match Text.trimStart text with
    | '-' :: rest => (readNumber Text.spanDigits rest).map fun (n, rest) ↦ (-(n : Int), rest)
    | '+' :: rest => (readNumber Text.spanDigits rest).map fun (n, rest) ↦ ((n : Int), rest)
    | unsigned =>
      (readNumber (Text.spanDigitsUpTo 4) unsigned).map fun (n, rest) ↦ ((n : Int), rest)
  if year < -0x80000000 ∨ 0x80000000 ≤ year then .error .outOfRange
  return (year, rest)

/-- A number of one or two digits between two bounds, after any blanks. -/
def readField (low high : Nat) (text : List Char) : Except Fault (Nat × List Char) := do
  let (n, rest) ← readNumber (Text.spanDigitsUpTo 2) (Text.trimStart text)
  if n < low ∨ high < n then .error .outOfRange
  return (n, rest)

/-- One given character. -/
def readMark (mark : Char) : List Char → Except Fault (List Char)
  | [] => .error .premature
  | c :: rest => if c = mark then .ok rest else .error .invalid

/-- Year, month and day with a hyphen between them; `gap` steps over what may stand before a
hyphen and after the day. -/
def readCivil (gap : List Char → List Char) (text : List Char) :
    Except Fault (CivilDate × List Char) := do
  let (year, rest) ← readYear text
  let rest ← readMark '-' (gap rest)
  let (month, rest) ← readField 1 12 rest
  let rest ← readMark '-' (gap rest)
  let (day, rest) ← readField 1 31 rest
  return (⟨year, month, day⟩, gap rest)

/-- A day from the whole of a text. -/
def readWith (gap : List Char → List Char) (text : List Char) : Except Fault Day := do
  let (date, rest) ← readCivil gap text
  if !rest.isEmpty then .error .trailing
  match ofCivil? date with
  | some day => .ok day
  | none => .error .outOfRange

/-- A day, the hyphens directly after the numbers. -/
def read (text : List Char) : Except Fault Day :=
  readWith id text

/-- A day with blanks allowed before the hyphens and at the end, as in settings and arguments. -/
def readSpaced? (text : String) : Option Day :=
  (readWith Text.trimStart text.toList).toOption

end Day

end DailyBars
