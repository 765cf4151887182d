import DailyBars.Day.Instant
import DailyBars.Proofs.Day.Reading
import Mathlib

/-!
# The texts and ticks of a time

A time of a day in UTC is given as ticks, or as a text: the text of the day alone, a date and a
time without an offset, or a date and a time anywhere in the world with the offset from UTC that
they have there (`Moment.HasText`). **Each of them is read as the day in UTC**
(`Moment.ofText?_eq`, `Moment.ofTicks?_eq`), before 1970 as well, and where the offset leads to
another year.

A text is tried in one form after the other. That the first one that fits is the right one rests on
three facts: a plain date does not go on after the day, an offset is never left out where one is
read, and the form with blanks between date and time does not step over a `T`.
-/

namespace DailyBars

/-! ### Times -/

/-- Hours, minutes and seconds. The second 60 is a leap second. -/
structure Clock where
  hour : Nat
  minute : Nat
  second : Nat
  hour_le : hour ≤ 23
  minute_le : minute ≤ 59
  second_le : second ≤ 60

/-- The characters of a time in hours, minutes and seconds. -/
def Clock.chars (clock : Clock) : List Char :=
  Text.padded 2 clock.hour ++ ':' :: (Text.padded 2 clock.minute ++ ':' ::
    Text.padded 2 clock.second)

/-- A time of a day in UTC. -/
structure Moment where
  day : Day
  clock : Clock
  nanosecond : Nat
  nanosecond_lt : nanosecond < 1000000000

/-- The minutes since 1970-01-01 of a time on a day. -/
def Clock.minutesAt (clock : Clock) (day : Day) : Int :=
  1440 * day.number + 60 * clock.hour + clock.minute

/-- The nanoseconds since 1970-01-01. -/
def Moment.nanoseconds (moment : Moment) : Int :=
  (60 * moment.clock.minutesAt moment.day + moment.clock.second) * 1000000000 + moment.nanosecond

/-- The length of a tick in nanoseconds. -/
def Day.TickUnit.length : Day.TickUnit → Int
  | .milliseconds => 1000000
  | .microseconds => 1000
  | .nanoseconds => 1

/-- The ticks since 1970-01-01; what is left of a tick does not count. -/
def Moment.ticks (moment : Moment) (unit : Day.TickUnit) : Int :=
  moment.nanoseconds / unit.length

/-- **The ticks of a time fall on its day**, before 1970 too. -/
theorem Moment.ofTicks?_eq {moment : Moment} (h : moment.clock.second ≤ 59)
    (unit : Day.TickUnit) : Day.ofTicks? unit (moment.ticks unit) = some moment.day := by
  have hhour := moment.clock.hour_le
  have hminute := moment.clock.minute_le
  have hnanosecond := moment.nanosecond_lt
  rw [Day.ofTicks?, Day.ofNumber?_eq_some_iff, ticks, nanoseconds, Clock.minutesAt,
    Int.fdiv_eq_ediv_of_nonneg _ (by cases unit <;> decide)]
  cases unit <;> dsimp only [Day.TickUnit.perDay, Day.TickUnit.length] <;> omega

/-! ### Blanks around a text -/

namespace Text

/-- A text without blanks at its ends. -/
structure IsTrimmed (text : List Char) : Prop where
  head : ∀ c, text.head? = some c → isBlank c = false
  last : ∀ c, text.getLast? = some c → isBlank c = false

theorem isTrimmed_of_forall {text : List Char} (h : ∀ c ∈ text, isBlank c = false) :
    IsTrimmed text where
  head c hc := h c (List.mem_of_head? hc)
  last c hc := h c (List.mem_of_getLast? hc)

theorem IsTrimmed.append {xs zs : List Char} (hxs : IsTrimmed xs) (hzs : IsTrimmed zs)
    (hxnil : xs ≠ []) (hznil : zs ≠ []) (ys : List Char) : IsTrimmed (xs ++ (ys ++ zs)) where
  head c hc := by
    rw [List.head?_append_of_ne_nil _ hxnil] at hc
    exact hxs.head c hc
  last c hc := by
    rw [List.getLast?_append_of_ne_nil _ (List.append_ne_nil_of_right_ne_nil _ hznil),
      List.getLast?_append_of_ne_nil _ hznil] at hc
    exact hzs.last c hc

theorem trimStart_append {blanks rest : List Char} (hblanks : ∀ c ∈ blanks, isBlank c = true)
    (hrest : ∀ c, rest.head? = some c → isBlank c = false) : trimStart (blanks ++ rest) = rest := by
  rw [trimStart, List.dropWhile_append_of_pos hblanks]
  cases rest with
  | nil => rfl
  | cons c rest => exact trimStart_cons_of_not_isBlank (hrest c rfl) rest

theorem trimEnd_append {text blanks : List Char}
    (htext : ∀ c, text.getLast? = some c → isBlank c = false)
    (hblanks : ∀ c ∈ blanks, isBlank c = true) : trimEnd (text ++ blanks) = text := by
  rw [trimEnd, List.reverse_append]
  show (trimStart (blanks.reverse ++ text.reverse)).reverse = text
  rw [trimStart_append (fun c hc ↦ hblanks c (List.mem_reverse.1 hc))
    (by rwa [List.head?_reverse]), List.reverse_reverse]

/-- **Blanks around a text are taken off**, and nothing else is. -/
theorem trim_surrounded {before text after : List Char} (htext : IsTrimmed text)
    (hbefore : ∀ c ∈ before, isBlank c = true) (hafter : ∀ c ∈ after, isBlank c = true) :
    trim (before ++ text ++ after) = text := by
  rw [trim]
  by_cases hnil : text = []
  · -- Nothing is left for the end to take off.
    have hall : trimStart (before ++ [] ++ after) = [] := by
      rw [trimStart, List.append_nil, List.dropWhile_eq_nil_iff]
      exact List.forall_mem_append.2 ⟨hbefore, hafter⟩
    rw [hnil, hall]
    rfl
  · have hstart : trimStart (before ++ (text ++ after)) = text ++ after :=
      trimStart_append hbefore (by rw [List.head?_append_of_ne_nil _ hnil]; exact htext.head)
    rw [List.append_assoc, hstart, trimEnd_append htext.last hafter]

end Text

/-! ### Reading in full width -/

namespace Day

theorem digits?_padded {count n : Nat} (hcount : 0 < count) (hn : n < 10 ^ count)
    (rest : List Char) : digits? count (Text.padded count n ++ rest) = some (n, rest) := by
  rw [digits?, Text.spanDigitsUpTo_padded_append hcount hn]
  dsimp only
  rw [if_pos (Text.length_padded hcount hn), Text.ofDigits_padded]

theorem mark?_cons (mark : Char) (rest : List Char) : mark? mark (mark :: rest) = some rest :=
  if_pos rfl

theorem readCivil_civil (day : Day) (rest : List Char) :
    readCivil id (day.civil.chars ++ rest) = .ok (day.civil, rest) :=
  readCivil_chars (fun _ ↦ rfl) day.year_bounds (CivilDate.isValid_ofNumber day.number) rest

/-- The day of a time without an offset, if `separator` leads to the time. -/
theorem ofLocalTime?_chars {separator : List Char → Option (List Char)} {rest : List Char}
    (clock : Clock) (hseparator : separator rest = some clock.chars) (day : Day) :
    ofLocalTime? separator (day.civil.chars ++ rest) = some day := by
  have hhour : readField 0 23 clock.chars = .ok (clock.hour, _) :=
    readField_padded (by decide) ⟨Nat.zero_le _, clock.hour_le⟩ _
  have hminute : readField 0 59 _ = .ok (clock.minute, ':' :: Text.padded 2 clock.second) :=
    readField_padded (by decide) ⟨Nat.zero_le _, clock.minute_le⟩ _
  have hsecond : readField 0 60 (Text.padded 2 clock.second ++ []) = .ok (clock.second, []) :=
    readField_padded (by decide) ⟨Nat.zero_le _, clock.second_le⟩ _
  rw [List.append_nil] at hsecond
  simp only [ofLocalTime?, Option.bind_eq_bind, Option.bind_eq_some_iff]
  exact ⟨_, congrArg Except.toOption (readCivil_civil day rest), _, hseparator, _,
    congrArg Except.toOption hhour, _, mark?_cons _ _, _, congrArg Except.toOption hminute, _,
    mark?_cons _ _, _, congrArg Except.toOption hsecond, ofCivil?_civil day⟩

/-- There is no such day if no hour is read. -/
theorem ofLocalTime?_eq_none {separator : List Char → Option (List Char)} {rest later : List Char}
    {fault : Fault} (hseparator : separator rest = some later)
    (hhour : readField 0 23 later = .error fault) (day : Day) :
    ofLocalTime? separator (day.civil.chars ++ rest) = none := by
  rw [ofLocalTime?, readCivil_civil]
  show (separator rest >>= _) = none
  rw [hseparator]
  show ((readField 0 23 later).toOption >>= _) = none
  rw [hhour]
  rfl

/-- **A date and a time are read in full**; what may follow is a fraction and an offset. -/
theorem ofOffsetTime?_chars {day : Day} (hday : day.IsUnsigned) {mark : Char}
    (hmark : mark = 'T' ∨ mark = 't' ∨ mark = ' ') (clock : Clock) (rest : List Char) :
    ofOffsetTime? (day.civil.chars ++ mark :: (clock.chars ++ rest)) = (do
      let rest ← fraction? rest
      let (offset, rest) ← offset? rest
      if rest.isEmpty then
        ofNumber? (Int.fdiv (60 * clock.minutesAt day + min clock.second 59 - offset) 86400)
      else none) := by
  obtain ⟨hlow, hhigh⟩ := hday
  obtain ⟨hmonth, hdayOfMonth⟩ : day.civil.IsShort := CivilDate.isShort_ofNumber day.number
  have hhour := clock.hour_le
  have hminute := clock.minute_le
  have hsecond := clock.second_le
  have hyear : day.civil.year.natAbs < 10 ^ 4 := by omega
  have htwo : ∀ {n : Nat}, n < 10 ^ 2 → ∀ rest, digits? 2 (Text.padded 2 n ++ rest) =
      some (n, rest) := fun hn ↦ digits?_padded (by decide) hn
  have hstep : ∀ {α : Type} {x : Option α} {a : α} {f : α → Option Day} {result : Option Day},
      x = some a → f a = result → (x >>= f) = result := by
    rintro α x a f result rfl rfl
    rfl
  rw [CivilDate.chars, yearChars_eq_padded hlow hhigh, Clock.chars]
  simp only [List.append_assoc, List.cons_append]
  refine hstep (digits?_padded (by decide) hyear _) <| hstep (mark?_cons _ _) <|
    hstep (htwo hmonth _) <| hstep (mark?_cons _ _) <| hstep (htwo hdayOfMonth _) <|
    (if_pos hmark).trans <| hstep rfl <| hstep (htwo (by omega) _) <| hstep (mark?_cons _ _) <|
    hstep (htwo (by omega) _) <| hstep (mark?_cons _ _) <| hstep (htwo (by omega) _) ?_
  dsimp only
  refine congrArg (fraction? rest >>= ·) (funext fun rest ↦ ?_)
  refine congrArg (offset? rest >>= ·) (funext fun found ↦ ?_)
  obtain ⟨offset, rest⟩ := found
  have hclock : (!rest.isEmpty || decide (23 < clock.hour) || decide (59 < clock.minute) ||
      decide (60 < clock.second)) = !rest.isEmpty := by
    simp [Nat.not_lt.2 hhour, Nat.not_lt.2 hminute, Nat.not_lt.2 hsecond]
  have hdate : ofCivil? ⟨(day.civil.year.natAbs : Int), day.civil.month, day.civil.day⟩ =
      some day := by
    rw [Int.natAbs_of_nonneg hlow]
    exact ofCivil?_civil day
  have hseconds : 86400 * day.number + 3600 * (clock.hour : Int) + 60 * clock.minute +
      (min clock.second 59 : Nat) - offset =
      60 * clock.minutesAt day + (min clock.second 59 : Nat) - offset := by
    rw [Clock.minutesAt]
    omega
  dsimp only
  rw [hclock, hdate]
  simp only [Option.bind_eq_bind, Option.bind_some, hseconds]
  cases rest.isEmpty with
  | false => rfl
  | true => rfl

/-! ### Fractions and offsets -/

/-- Nothing, or a point and the digits of a fraction. -/
inductive IsFraction : List Char → Prop
  | none : IsFraction []
  | digits {digits : List Char} (hne : digits ≠ []) (hdigits : ∀ c ∈ digits, c.isDigit = true) :
      IsFraction ('.' :: digits)

/-- The characters of an offset from UTC in minutes, positive to the east. -/
inductive IsOffset : List Char → Int → Prop
  | zero {mark : Char} (hmark : mark = 'Z' ∨ mark = 'z') : IsOffset [mark] 0
  | east {hours minutes : Nat} (hhours : hours ≤ 23) (hminutes : minutes ≤ 59) :
      IsOffset ('+' :: (Text.padded 2 hours ++ ':' :: Text.padded 2 minutes)) (60 * hours + minutes)
  | west {mark : Char} (hmark : mark = '-' ∨ mark = '\u2212') {hours minutes : Nat}
      (hhours : hours ≤ 23) (hminutes : minutes ≤ 59) :
      IsOffset (mark :: (Text.padded 2 hours ++ ':' :: Text.padded 2 minutes))
        (-(60 * hours + minutes))

theorem fraction?_append {fraction : List Char} (h : IsFraction fraction) {mark : Char}
    (hdigit : mark.isDigit = false) (hpoint : mark ≠ '.') (rest : List Char) :
    fraction? (fraction ++ mark :: rest) = some (mark :: rest) := by
  cases h with
  | none =>
    rw [List.nil_append, fraction?]
    rintro later heq
    exact hpoint (List.cons.inj heq).1
  | digits hne hdigits =>
    rw [List.cons_append, fraction?, Text.spanDigits_append hdigits hdigit]
    dsimp only
    rw [List.isEmpty_eq_false_iff.2 hne]
    rfl

/-- The hours and the minutes of an offset are read after its sign. -/
theorem offset?_cons {mark : Char} {negative : Bool} (hsign : mark = '+' ∧ negative = false ∨
    (mark = '-' ∨ mark = '\u2212') ∧ negative = true) {hours minutes : Nat} (hhours : hours ≤ 23)
    (hminutes : minutes ≤ 59) :
    offset? (mark :: (Text.padded 2 hours ++ ':' :: Text.padded 2 minutes)) =
      some (if negative then -(60 * (60 * hours + minutes) : Int) else 60 * (60 * hours + minutes),
        []) := by
  have hhour : digits? 2 (Text.padded 2 hours ++ ':' :: Text.padded 2 minutes) =
      some (hours, ':' :: Text.padded 2 minutes) := digits?_padded (by decide) (by omega) _
  have hminute : digits? 2 (Text.padded 2 minutes ++ []) = some (minutes, []) :=
    digits?_padded (by decide) (by omega) []
  have hseconds : 60 * (60 * (hours : Int) + minutes) = 3600 * hours + 60 * minutes := by omega
  rw [List.append_nil] at hminute
  rw [hseconds]
  rcases hsign with ⟨rfl, rfl⟩ | ⟨rfl | rfl, rfl⟩ <;>
    simp [offset?, hhour, hminute, mark?_cons, Nat.not_lt.2 hhours, Nat.not_lt.2 hminutes]

/-- An offset starts with no digit and no point, and is read up to its end. -/
theorem offset?_eq {text : List Char} {minutes : Int} (h : IsOffset text minutes) :
    offset? text = some (60 * minutes, []) ∧
      ∃ mark rest, text = mark :: rest ∧ mark.isDigit = false ∧ mark ≠ '.' := by
  cases h with
  | zero hmark =>
    rcases hmark with rfl | rfl
    · exact ⟨rfl, _, _, rfl, by decide, by decide⟩
    · exact ⟨rfl, _, _, rfl, by decide, by decide⟩
  | east hhours hminutes =>
    refine ⟨?_, _, _, rfl, by decide, by decide⟩
    exact offset?_cons (.inl ⟨rfl, rfl⟩) hhours hminutes
  | @west mark hmark hours minutes hhours hminutes =>
    have hmark' : mark.isDigit = false ∧ mark ≠ '.' := by
      rcases hmark with rfl | rfl <;> decide
    refine ⟨?_, _, _, rfl, hmark'⟩
    rw [offset?_cons (.inr ⟨hmark, rfl⟩) hhours hminutes, if_pos rfl, mul_neg]

end Day

/-! ### Texts of a time -/

/-- The texts that a time is given by, without blanks around them: its day, its day and its time, or
the date and the time that it is somewhere in the years 0 to 9999, with the offset from UTC there.
A fraction of the second may be written with any digits. -/
inductive Moment.HasText (moment : Moment) : List Char → Prop
  | day : HasText moment moment.day.text.toList
  | time {mark : Char} (hmark : mark = ' ' ∨ mark = 'T') :
      HasText moment (moment.day.text.toList ++ mark :: moment.clock.chars)
  | offsetTime {date : Day} {clock : Clock} {mark : Char} {fraction offset : List Char}
      {minutes : Int} (hdate : date.IsUnsigned) (hmark : mark = 'T' ∨ mark = 't' ∨ mark = ' ')
      (hfraction : Day.IsFraction fraction) (hoffset : Day.IsOffset offset minutes)
      (hminutes : clock.minutesAt date = moment.clock.minutesAt moment.day + minutes)
      (hsecond : clock.second = moment.clock.second) :
      HasText moment (date.text.toList ++ mark :: (clock.chars ++ (fraction ++ offset)))

namespace Moment

variable {moment : Moment} {text : List Char}

/-- **The offset is taken off before the day is looked up.** -/
theorem ofOffsetTime?_eq {date : Day} {clock : Clock} {mark : Char} {fraction offset : List Char}
    {minutes : Int} (hdate : date.IsUnsigned) (hmark : mark = 'T' ∨ mark = 't' ∨ mark = ' ')
    (hfraction : Day.IsFraction fraction) (hoffset : Day.IsOffset offset minutes)
    (hminutes : clock.minutesAt date = moment.clock.minutesAt moment.day + minutes) :
    Day.ofOffsetTime? (date.civil.chars ++ mark :: (clock.chars ++ (fraction ++ offset))) =
      some moment.day := by
  obtain ⟨hread, first, rest, rfl, hdigit, hpoint⟩ := Day.offset?_eq hoffset
  rw [Day.ofOffsetTime?_chars hdate hmark, Day.fraction?_append hfraction hdigit hpoint]
  show (Day.offset? (first :: rest) >>= _) = _
  rw [hread]
  show Day.ofNumber? _ = _
  have hhour := moment.clock.hour_le
  have hminute := moment.clock.minute_le
  rw [Day.ofNumber?_eq_some_iff, Int.fdiv_eq_ediv_of_nonneg _ (by decide), hminutes,
    Clock.minutesAt]
  omega

/-- No form with more than a date is read as a plain date. -/
theorem toOption_read_append (day : Day) (mark : Char) (rest : List Char) :
    (Day.read (day.civil.chars ++ mark :: rest)).toOption = none := by
  rw [Day.read, Day.readWith, Day.readCivil_civil]
  rfl

/-- A year with a sign has no time with an offset. -/
theorem ofOffsetTime?_cons {sign : Char} (hsign : sign.isDigit = false) (rest : List Char) :
    Day.ofOffsetTime? (sign :: rest) = none := by
  have hdigits : Day.digits? 4 (sign :: rest) = none := by
    simp [Day.digits?, Text.spanDigitsUpTo, hsign]
  rw [Day.ofOffsetTime?, hdigits]
  rfl

/-- Without an offset there is no time with an offset. -/
theorem ofOffsetTime?_chars_eq_none (day : Day) {mark : Char} (hmark : mark = ' ' ∨ mark = 'T')
    (clock : Clock) : Day.ofOffsetTime? (day.civil.chars ++ mark :: clock.chars) = none := by
  by_cases hday : day.IsUnsigned
  · have hmark' : mark = 'T' ∨ mark = 't' ∨ mark = ' ' := hmark.symm.imp_right Or.inr
    have hread := Day.ofOffsetTime?_chars hday hmark' clock []
    rw [List.append_nil] at hread
    exact hread
  · rw [CivilDate.chars, yearChars]
    split
    · exact ofOffsetTime?_cons (by decide) _
    split
    · rename_i hlow hhigh
      exact absurd ⟨Int.not_lt.1 hlow, hhigh⟩ hday
    · exact ofOffsetTime?_cons (by decide) _

/-- The time after a blank or a `T` is read, in the one form or in the other. -/
theorem ofLocalTime?_orElse (day : Day) {mark : Char} (hmark : mark = ' ' ∨ mark = 'T')
    (clock : Clock) :
    (Day.ofLocalTime? (fun rest ↦ some (Text.trimStart rest))
          (day.civil.chars ++ mark :: clock.chars)
        <|> Day.ofLocalTime? (Day.mark? 'T') (day.civil.chars ++ mark :: clock.chars)) =
      some day := by
  rcases hmark with rfl | rfl
  · have hskip : Text.trimStart (' ' :: clock.chars) = clock.chars := by
      rw [Text.trimStart_cons_of_isBlank (by decide), Clock.chars, Text.trimStart_padded_append]
    have hread : Day.ofLocalTime? (fun rest ↦ some (Text.trimStart rest))
        (day.civil.chars ++ ' ' :: clock.chars) = some day := by
      refine Day.ofLocalTime?_chars clock ?_ day
      exact congrArg some hskip
    rw [hread]
    rfl
  · have hkeep : Text.trimStart ('T' :: clock.chars) = 'T' :: clock.chars :=
      Text.trimStart_cons_of_not_isBlank (by decide) _
    have hhour : Day.readField 0 23 ('T' :: clock.chars) = .error .invalid := rfl
    have hskip : Day.ofLocalTime? (fun rest ↦ some (Text.trimStart rest))
        (day.civil.chars ++ 'T' :: clock.chars) = none := by
      refine Day.ofLocalTime?_eq_none ?_ hhour day
      exact congrArg some hkeep
    rw [hskip, Day.ofLocalTime?_chars clock (Day.mark?_cons 'T' _)]
    rfl

/-! ### Ends without blanks -/

theorem isBlank_of_mem_chars {date : CivilDate} {c : Char} (hc : c ∈ date.chars) :
    Text.isBlank c = false := by
  rcases CivilDate.isDigit_of_mem_chars hc with hdigit | rfl | rfl
  · exact Text.isBlank_of_isDigit hdigit
  · decide
  · decide

theorem isBlank_of_mem_padded {width n : Nat} {c : Char} (hc : c ∈ Text.padded width n) :
    Text.isBlank c = false :=
  Text.isBlank_of_isDigit (Text.isDigit_of_mem_padded hc)

theorem isTrimmed_clock (clock : Clock) : Text.IsTrimmed clock.chars := by
  refine Text.isTrimmed_of_forall (List.forall_mem_append.2 ⟨fun _ ↦ isBlank_of_mem_padded,
    List.forall_mem_cons.2 ⟨by decide, List.forall_mem_append.2 ⟨fun _ ↦ isBlank_of_mem_padded,
      List.forall_mem_cons.2 ⟨by decide, fun _ ↦ isBlank_of_mem_padded⟩⟩⟩⟩)

theorem isTrimmed_offset {minutes : Int} (h : Day.IsOffset text minutes) : Text.IsTrimmed text := by
  have hnumbers : ∀ {hours minutes : Nat}, ∀ c ∈ Text.padded 2 hours ++ ':' ::
      Text.padded 2 minutes, Text.isBlank c = false := fun {_ _} ↦
    List.forall_mem_append.2 ⟨fun _ ↦ isBlank_of_mem_padded,
      List.forall_mem_cons.2 ⟨by decide, fun _ ↦ isBlank_of_mem_padded⟩⟩
  refine Text.isTrimmed_of_forall ?_
  cases h with
  | zero hmark =>
    rw [List.forall_mem_singleton]
    rcases hmark with rfl | rfl <;> decide
  | east => exact List.forall_mem_cons.2 ⟨by decide, hnumbers⟩
  | west hmark =>
    refine List.forall_mem_cons.2 ⟨?_, hnumbers⟩
    rcases hmark with rfl | rfl <;> decide

theorem isTrimmed_day (day : Day) : Text.IsTrimmed day.text.toList := by
  rw [Day.text, String.toList_ofList]
  exact Text.isTrimmed_of_forall fun _ ↦ isBlank_of_mem_chars

/-- No text of a time starts or ends with a blank. -/
theorem HasText.isTrimmed (h : moment.HasText text) : Text.IsTrimmed text := by
  have hday : ∀ day : Day, day.text.toList ≠ [] := by simp [Day.text, CivilDate.chars]
  cases h with
  | day => exact isTrimmed_day _
  | @time mark =>
    have hclock : moment.clock.chars ≠ [] := by simp [Clock.chars]
    exact (isTrimmed_day _).append (isTrimmed_clock _) (hday _) hclock [mark]
  | @offsetTime date clock mark fraction offset minutes _ _ _ hoffset =>
    obtain ⟨-, first, rest, rfl, -⟩ := Day.offset?_eq hoffset
    have htext : mark :: (clock.chars ++ (fraction ++ first :: rest)) =
        mark :: (clock.chars ++ fraction) ++ first :: rest := by simp
    rw [htext]
    exact (isTrimmed_day _).append (isTrimmed_offset hoffset) (hday _) (List.cons_ne_nil _ _) _

/-- **Every text of a time is read as its day in UTC**, with any blanks around it. -/
theorem ofText?_eq (h : moment.HasText text) {before after : List Char}
    (hbefore : ∀ c ∈ before, Text.isBlank c = true) (hafter : ∀ c ∈ after, Text.isBlank c = true) :
    Day.ofText? (String.ofList (before ++ text ++ after)) = some moment.day := by
  have htrim : Text.trim (String.ofList (before ++ text ++ after)).toList = text := by
    rw [String.toList_ofList, Text.trim_surrounded h.isTrimmed hbefore hafter]
  rw [Day.ofText?, htrim]
  cases h with
  | day =>
    have hread : Day.read moment.day.text.toList = .ok moment.day :=
      Day.readWith_text rfl (fun _ ↦ rfl) moment.day
    rw [hread]
    rfl
  | time hmark =>
    rw [Day.text, String.toList_ofList, toOption_read_append,
      ofOffsetTime?_chars_eq_none _ hmark, ofLocalTime?_orElse _ hmark]
    rfl
  | offsetTime hdate hmark hfraction hoffset hminutes =>
    rw [Day.text, String.toList_ofList, toOption_read_append,
      ofOffsetTime?_eq hdate hmark hfraction hoffset hminutes]
    rfl

end Moment

end DailyBars
