import DailyBars.Day.Text

/-!
# The day of an instant

An instant falls on the day that holds it in UTC. Instants come as ticks since 1970-01-01 in some
unit, or as text: with an offset from UTC, which is taken off before the day is looked up, or
without one. `ofText?` accepts every form that the day column of a table may use.
-/

namespace DailyBars.Day

/-- Units in which instants are counted. -/
inductive TickUnit where
  | milliseconds
  | microseconds
  | nanoseconds
deriving DecidableEq

def TickUnit.perDay : TickUnit → Int
  | .milliseconds => 86400 * 1000
  | .microseconds => 86400 * 1000000
  | .nanoseconds => 86400 * 1000000000

/-- The day that holds an instant, for instants before 1970 too. -/
def ofTicks? (unit : TickUnit) (ticks : Int) : Option Day :=
  ofNumber? (Int.fdiv ticks unit.perDay)

/-- Exactly `count` digits. -/
def digits? (count : Nat) (text : List Char) : Option (Nat × List Char) :=
  let (digits, rest) := Text.spanDigitsUpTo count text
  if digits.length = count then some (Text.ofDigits digits, rest) else none

/-- One given character. -/
def mark? (mark : Char) : List Char → Option (List Char)
  | c :: rest => if c = mark then some rest else none
  | [] => none

/-- A fraction of a second, which does not matter to the day: a point and digits. -/
def fraction? : List Char → Option (List Char)
  | '.' :: rest =>
    let (digits, rest) := Text.spanDigits rest
    if digits.isEmpty then none else some rest
  | text => some text

/-- An offset from UTC in seconds: `Z`, or a sign, hours and minutes up to 23:59. -/
def offset? : List Char → Option (Int × List Char)
  | [] => none
  | c :: rest => do
    if c = 'Z' ∨ c = 'z' then return (0, rest)
    let negative ←
      if c = '+' then some false else if c = '-' ∨ c = '\u2212' then some true else none
    let (hours, rest) ← digits? 2 rest
    let rest ← mark? ':' rest
    let (minutes, rest) ← digits? 2 rest
    if 59 < minutes ∨ 23 < hours then none
    let seconds : Int := 3600 * hours + 60 * minutes
    return (if negative then -seconds else seconds, rest)

/-- The UTC day of a date and time with an offset, all numbers in their full width. A leap second
belongs to the minute that it ends. -/
def ofOffsetTime? (text : List Char) : Option Day := do
  let (year, rest) ← digits? 4 text
  let rest ← mark? '-' rest
  let (month, rest) ← digits? 2 rest
  let rest ← mark? '-' rest
  let (dayOfMonth, rest) ← digits? 2 rest
  let rest ←
    match rest with
    | c :: rest => if c = 'T' ∨ c = 't' ∨ c = ' ' then some rest else none
    | [] => none
  let (hour, rest) ← digits? 2 rest
  let rest ← mark? ':' rest
  let (minute, rest) ← digits? 2 rest
  let rest ← mark? ':' rest
  let (second, rest) ← digits? 2 rest
  let rest ← fraction? rest
  let (offset, rest) ← offset? rest
  if !rest.isEmpty || 23 < hour || 59 < minute || 60 < second then none
  let day ← ofCivil? ⟨year, month, dayOfMonth⟩
  let seconds : Int := 86400 * day.number + 3600 * hour + 60 * minute + min second 59 - offset
  ofNumber? (Int.fdiv seconds 86400)

/-- The day of a date and time without an offset; `separator` steps over what stands between. -/
def ofLocalTime? (separator : List Char → Option (List Char)) (text : List Char) : Option Day := do
  let (date, rest) ← (readCivil id text).toOption
  let rest ← separator rest
  let (_, rest) ← (readField 0 23 rest).toOption
  let rest ← mark? ':' rest
  let (_, rest) ← (readField 0 59 rest).toOption
  let rest ← mark? ':' rest
  let (_, rest) ← (readField 0 60 rest).toOption
  if !rest.isEmpty then none
  ofCivil? date

/-- The day of an entry of a day column: a plain date, a time with an offset, or a time without
one after blanks or a `T`. The first form that fits decides. -/
def ofText? (entry : String) : Option Day :=
  let text := Text.trim entry.toList
  (read text).toOption
    <|> ofOffsetTime? text
    <|> ofLocalTime? (fun rest ↦ some (Text.trimStart rest)) text
    <|> ofLocalTime? (mark? 'T') text

end DailyBars.Day
