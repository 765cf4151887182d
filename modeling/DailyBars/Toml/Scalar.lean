import DailyBars.Binary64.Decimal
import DailyBars.Day.Civil
import DailyBars.Toml.Value

/-!
# TOML numbers, truth values and times

A value without quotes or brackets is one word, which is classified as a whole. Numbers may have
single underscores between digits. Integers fit 64 bits and are decimal, without leading zeros, or
hexadecimal, octal or binary, without a sign. Dates and times of day are in the calendar.
-/

namespace DailyBars.Toml

/-- Whether a character may be part of a word. -/
def isWordChar (c : Char) : Bool :=
  c.isAlphanum || c == '_' || c == '+' || c == '-' || c == '.' || c == ':'

/-- Digits with single underscores between them, without the underscores; none if a character is
no digit or an underscore does not stand between two digits. -/
def dropUnderscores? (isDigit : Char → Bool) : List Char → Option (List Char)
  | [] => none
  | [c] => if isDigit c then some [c] else none
  | c :: '_' :: rest =>
    if isDigit c then (dropUnderscores? isDigit rest).map (c :: ·) else none
  | c :: rest => if isDigit c then (dropUnderscores? isDigit rest).map (c :: ·) else none

/-- Decimal digits, without the underscores. -/
def decimalDigits? (text : List Char) : Option (List Char) :=
  dropUnderscores? Char.isDigit text

/-- Decimal digits without a leading zero. -/
def wholeDigits? (text : List Char) : Option (List Char) :=
  match text with
  | '0' :: _ :: _ => none
  | text => decimalDigits? text

/-- The value of a digit in any base up to sixteen. -/
def digitValue (c : Char) : Nat :=
  if c.isDigit then c.toNat - '0'.toNat else c.toLower.toNat - 'a'.toNat + 10

/-- A number in a base, with underscores. -/
def inBase? (base : Nat) (text : List Char) : Option Int := do
  let isDigit (c : Char) : Bool :=
    (c.isDigit || ('a' ≤ c.toLower && c.toLower ≤ 'f')) && digitValue c < base
  let digits ← dropUnderscores? isDigit text
  return (digits.foldl (fun n c ↦ base * n + digitValue c) 0 : Nat)

/-- An integer. -/
def integer? (word : List Char) : Option Int :=
  match word with
  | '0' :: 'x' :: rest => inBase? 16 rest
  | '0' :: 'o' :: rest => inBase? 8 rest
  | '0' :: 'b' :: rest => inBase? 2 rest
  | word => do
    let (isNegative, rest) := Text.splitSign word
    let n : Int := Text.ofDigits (← wholeDigits? rest)
    return if isNegative then -n else n

/-- An exponent with its letter, without underscores; no text is no exponent. -/
def exponentText? : List Char → Option (List Char)
  | [] => some []
  | c :: rest => do
    if c ≠ 'e' ∧ c ≠ 'E' then none
    let (isNegative, digits) := Text.splitSign rest
    let digits ← decimalDigits? digits
    return 'e' :: (if isNegative then '-' :: digits else digits)

/-- The unsigned number of a word with a point or an exponent, without underscores. -/
def realText? (word : List Char) : Option (List Char) := do
  let isPart (c : Char) : Bool := c.isDigit || c == '_'
  let whole ← wholeDigits? (word.takeWhile isPart)
  match word.dropWhile isPart with
  | '.' :: rest =>
    let fraction ← decimalDigits? (rest.takeWhile isPart)
    let exponent ← exponentText? (rest.dropWhile isPart)
    return whole ++ '.' :: fraction ++ exponent
  | [] => none
  | rest => return whole ++ (← exponentText? rest)

/-- A number with a point or an exponent, or one of the words `inf` and `nan`. A number too large
for a double has no value. -/
def real? (word : List Char) : Option Binary64 := do
  let (isNegative, rest) := Text.splitSign word
  if rest = "inf".toList then
    return if isNegative then .negInfinity else .infinity
  if rest = "nan".toList then return .nan
  let text ← realText? rest
  let x ← Binary64.ofText? (if isNegative then '-' :: text else text)
  if x = .infinity then none
  return x

/-! ### Times -/

/-- A number of `count` digits. -/
def fixed? (count : Nat) (text : List Char) : Option (Nat × List Char) :=
  let digits := text.take count
  if digits.length = count ∧ digits.all Char.isDigit then
    some (Text.ofDigits digits, text.drop count)
  else none

/-- One given character. -/
def mark? (mark : Char) : List Char → Option (List Char)
  | c :: rest => if c = mark then some rest else none
  | [] => none

/-- A date of the calendar, and what follows it. -/
def date? (text : List Char) : Option (List Char) := do
  let (year, rest) ← fixed? 4 text
  let (month, rest) ← fixed? 2 (← mark? '-' rest)
  let (day, rest) ← fixed? 2 (← mark? '-' rest)
  if (CivilDate.mk year month day).isValid then some rest else none

/-- A time of day, and what follows it. -/
def timeOfDay? (text : List Char) : Option (List Char) := do
  let (hour, rest) ← fixed? 2 text
  let (minute, rest) ← fixed? 2 (← mark? ':' rest)
  let (second, rest) ← fixed? 2 (← mark? ':' rest)
  if 23 < hour ∨ 59 < minute ∨ 60 < second then none
  match rest with
  | '.' :: rest =>
    let after := rest.dropWhile Char.isDigit
    if after.length = rest.length then none else some after
  | rest => some rest

/-- Whether a text is an offset from UTC, or nothing. -/
def isOffset (text : List Char) : Bool :=
  match text with
  | [] => true
  | ['Z'] => true
  | ['z'] => true
  | c :: rest =>
    (c == '+' || c == '-') &&
      match fixed? 2 rest with
      | some (hour, ':' :: rest) =>
        match fixed? 2 rest with
        | some (minute, []) => hour ≤ 23 && minute ≤ 59
        | _ => false
      | _ => false

/-- Whether a word is a date, a time of day, or both with a letter or a blank between them. -/
def isTime (word : List Char) : Bool :=
  match date? word with
  | some [] => true
  | some (c :: rest) =>
    (c == 'T' || c == 't' || c == ' ') && ((timeOfDay? rest).map isOffset).getD false
  | none => timeOfDay? word == some []

/-- The value of a word. -/
def scalar? (word : List Char) : Option Value :=
  if word = "true".toList then some (.truth true)
  else if word = "false".toList then some (.truth false)
  else
    match integer? word with
    | some n => (Text.int64? n).map .integer
    | none =>
      match real? word with
      | some x => some (.real x)
      | none => if isTime word then some (.time (String.ofList word)) else none

/-- The word at the start of a text, and what follows it. A date takes a time of day after a blank
along. -/
def splitWord (text : List Char) : List Char × List Char :=
  let word := text.takeWhile isWordChar
  let rest := text.dropWhile isWordChar
  match date? word, rest with
  | some [], ' ' :: c :: after =>
    if c.isDigit then
      (word ++ ' ' :: (c :: after).takeWhile isWordChar, (c :: after).dropWhile isWordChar)
    else (word, rest)
  | _, _ => (word, rest)

end DailyBars.Toml
