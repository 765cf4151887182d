import DailyBars.Proofs.Day.TextOrder
import DailyBars.Proofs.Result
import Mathlib

/-!
# Reading back days

Every day reads back from its text (`Day.readWith_text`), with or without blanks allowed between
its parts. What is read is checked twice: each number against its own range, and the date against
the calendar. So the civil date of a day has to be **in the calendar, not only to have the number of
the day**: a year that starts in March has its 366th day only before the end of a leap year
(`CivilDate.isLeapYear_yearOfDays`).
-/

namespace DailyBars

/-! ### Days in the calendar -/

namespace CivilDate

/-- The last day of February is the last of its year in March, and only a leap year has the 366th.
The last year of a cycle is the one before a leap year, unless the cycle is the last of a century
that is not the last of its era: that one is a day shorter. -/
theorem isLeapYear_yearOfDays {days : Int}
    (h : days - daysBeforeYear (yearOfDays days) = 365) :
    isLeapYear (yearOfDays days + 1) = true := by
  obtain ⟨d, hd⟩ : ∃ d, d = days % 146097 := ⟨_, rfl⟩
  obtain ⟨century, hcentury⟩ : ∃ century, century = min (d / 36524) 3 := ⟨_, rfl⟩
  obtain ⟨cycle, hcycle⟩ : ∃ cycle, cycle = (d - 36524 * century) / 1461 := ⟨_, rfl⟩
  obtain ⟨year, hyear⟩ : ∃ year, year = min ((d - 36524 * century - 1461 * cycle) / 365) 3 :=
    ⟨_, rfl⟩
  have hparts : yearOfDays days = 400 * (days / 146097) + 100 * century + 4 * cycle + year := by
    rw [hyear, hcycle, hcentury, hd, yearOfDays]
  have hd' : 0 ≤ d ∧ d < 146097 := by omega
  have hcentury' : 0 ≤ century ∧ century ≤ 3 := by omega
  have hcycle' : 0 ≤ cycle ∧ cycle ≤ 24 := by omega
  have hyear' : 0 ≤ year ∧ year ≤ 3 := by omega
  rw [hparts, daysBeforeYear_eq hcentury' hcycle' hyear'] at h
  have hlast : year = 3 ∧ (cycle = 24 → century = 3) := by omega
  rw [hparts, isLeapYear, hlast.1]
  simp only [Bool.and_eq_true, Bool.or_eq_true, beq_iff_eq, bne_iff_ne]
  omega

theorem isValid_ofMarch {year n : Int} (hlow : 0 ≤ n) (hhigh : n < 366)
    (hleap : n = 365 → isLeapYear (year + 1) = true) : (ofMarch year n).isValid = true := by
  obtain ⟨month, hmonth⟩ : ∃ month, month = (5 * n + 2) / 153 := ⟨_, rfl⟩
  rw [isValid, ofMarch, ← hmonth, Bool.and_eq_true, decide_eq_true_eq, decide_eq_true_eq]
  dsimp only [daysBeforeMonth]
  obtain hother | rfl : month ≤ 10 ∨ month = 11 := by omega
  · have hfirst : 0 ≤ month := by omega
    interval_cases month
    all_goals
      simp [daysInMonth]
      omega
  · by_cases hyear : isLeapYear (year + 1) = true
    · simp [daysInMonth, hyear]
      omega
    · have hn : n ≠ 365 := fun heq ↦ hyear (hleap heq)
      simp [daysInMonth, hyear]
      omega

theorem isValid_ofNumber (n : Int) : (ofNumber n).isValid = true := by
  have h := daysBeforeYear_yearOfDays (n + 719468)
  exact isValid_ofMarch (by omega) (by omega) isLeapYear_yearOfDays

/-- A date in the calendar has each of its parts in the range of that part. -/
theorem bounds_of_isValid {date : CivilDate} (h : date.isValid = true) :
    (1 ≤ date.month ∧ date.month ≤ 12) ∧ 1 ≤ date.day ∧ date.day ≤ 31 := by
  rw [isValid, Bool.and_eq_true, decide_eq_true_eq, decide_eq_true_eq] at h
  obtain ⟨hlow, hhigh⟩ := h
  unfold daysInMonth at hhigh
  split at hhigh
  all_goals try omega
  split at hhigh
  all_goals omega

end CivilDate

theorem Day.ofCivil?_civil (day : Day) : ofCivil? day.civil = some day := by
  rw [ofCivil?, civil, if_pos (CivilDate.isValid_ofNumber _), CivilDate.number_ofNumber,
    ofNumber?_number]

/-- The year of a day fits 32 bits. -/
theorem Day.year_bounds (day : Day) :
    -0x80000000 ≤ day.civil.year ∧ day.civil.year < 0x80000000 := by
  obtain ⟨era, century, cycle, year, rest, h₁, h₂, h₃, h₄, h₅, h₆, h₇, h₈, hyear, hdays⟩ :=
    CivilDate.yearOfDays_eq (day.number + 719468)
  have hrange := day.inRange
  have hcivil : day.civil.year = CivilDate.yearOfDays (day.number + 719468) ∨
      day.civil.year = CivilDate.yearOfDays (day.number + 719468) + 1 := by
    rw [civil, CivilDate.ofNumber, CivilDate.ofMarch]
    dsimp only
    split
    · exact .inl rfl
    · exact .inr rfl
  omega

/-! ### Numbers -/

namespace Text

theorem isBlank_of_isDigit {c : Char} (h : c.isDigit = true) : isBlank c = false := by
  simp only [Char.isDigit, Bool.and_eq_true, decide_eq_true_eq, UInt32.le_iff_toNat_le] at h
  have hlow : 0x30 ≤ c.toNat := h.1
  have hhigh : c.toNat ≤ 0x39 := h.2
  simp only [isBlank, Bool.or_eq_false_iff, Bool.and_eq_false_iff, decide_eq_false_iff_not,
    beq_eq_false_iff_ne]
  omega

theorem trimStart_padded_append (width n : Nat) (rest : List Char) :
    trimStart (padded width n ++ rest) = padded width n ++ rest := by
  obtain ⟨first, later, hpadded⟩ := List.exists_cons_of_ne_nil (padded_ne_nil width n)
  have hdigit := isDigit_of_mem_padded (hpadded ▸ List.mem_cons_self)
  rw [hpadded]
  exact trimStart_cons_of_not_isBlank (isBlank_of_isDigit hdigit) _

/-- Digits are read up to the first mark. -/
theorem spanDigits_append {digits : List Char} (hdigits : ∀ c ∈ digits, c.isDigit = true)
    {mark : Char} (hmark : mark.isDigit = false) (rest : List Char) :
    spanDigits (digits ++ mark :: rest) = (digits, mark :: rest) := by
  have hno : ¬mark.isDigit = true := by
    rw [hmark]
    exact Bool.false_ne_true
  rw [spanDigits, List.takeWhile_append_of_pos hdigits, List.dropWhile_append_of_pos hdigits,
    List.takeWhile_cons_of_neg hno, List.dropWhile_cons_of_neg hno, List.append_nil]

/-- A number that fills its places is read whatever follows. -/
theorem spanDigitsUpTo_padded_append {width n : Nat} (hwidth : 0 < width) (hn : n < 10 ^ width)
    (rest : List Char) :
    spanDigitsUpTo width (padded width n ++ rest) = (padded width n, rest) := by
  have hlength := length_padded hwidth hn
  have htake : (padded width n ++ rest).take width = padded width n := by
    rw [List.take_append_of_le_length hlength.ge, List.take_of_length_le hlength.le]
  have hdigits : (padded width n).takeWhile Char.isDigit = padded width n :=
    List.takeWhile_eq_self_iff.2 fun _ ↦ isDigit_of_mem_padded
  rw [spanDigitsUpTo, htake, hdigits, List.drop_left]

end Text

namespace Day

theorem readNumber_padded {digits : List Char → List Char × List Char} {width n : Nat}
    {text rest : List Char} (h : digits text = (Text.padded width n, rest)) :
    readNumber digits text = .ok (n, rest) := by
  obtain ⟨first, later, hpadded⟩ := List.exists_cons_of_ne_nil (Text.padded_ne_nil width n)
  have hvalue := Text.ofDigits_padded width n
  rw [hpadded] at h hvalue
  rw [readNumber, h]
  dsimp only
  rw [hvalue]

theorem readField_padded {low high n : Nat} (hhigh : high < 100) (hn : low ≤ n ∧ n ≤ high)
    (rest : List Char) : readField low high (Text.padded 2 n ++ rest) = .ok (n, rest) := by
  rw [readField, Text.trimStart_padded_append,
    readNumber_padded (Text.spanDigitsUpTo_padded_append (by decide) (by omega) rest)]
  show (if n < low ∨ high < n then _ else _) = _
  rw [if_neg (by omega)]
  rfl

/-- A year is read up to the hyphen after it. -/
theorem readYear_yearChars {year : Int} (hyear : -0x80000000 ≤ year ∧ year < 0x80000000)
    (rest : List Char) :
    readYear (yearChars year ++ '-' :: rest) = .ok (year, '-' :: rest) := by
  have hspan : Text.spanDigits (Text.padded 4 year.natAbs ++ '-' :: rest) =
      (Text.padded 4 year.natAbs, '-' :: rest) :=
    Text.spanDigits_append (fun _ ↦ Text.isDigit_of_mem_padded) (by decide) rest
  have hkept : ∀ {n : Int}, n = year → (do
      if n < -0x80000000 ∨ 0x80000000 ≤ n then .error .outOfRange
      return (n, '-' :: rest)) = Except.ok (ε := Fault) (year, '-' :: rest) := by
    rintro n rfl
    rw [if_neg (by omega)]
    rfl
  unfold yearChars
  split
  · rw [List.cons_append, readYear, Text.trimStart_cons_of_not_isBlank (by decide)]
    show ((readNumber Text.spanDigits (_ ++ '-' :: rest)).map _).bind _ = _
    rw [readNumber_padded hspan]
    exact hkept (by omega)
  split
  · have hsign := fun {c : Char} (hc : c.isDigit = false) (later : List Char) ↦
      Text.cons_ne_padded_append hc later 4 year.natAbs ('-' :: rest)
    rw [readYear, Text.trimStart_padded_append]
    split
    · rename_i heq
      exact absurd heq.symm (hsign (by decide) _)
    · rename_i heq
      exact absurd heq.symm (hsign (by decide) _)
    · rw [readNumber_padded (Text.spanDigitsUpTo_padded_append (by decide) (by omega) _)]
      exact hkept (by omega)
  · rw [List.cons_append, readYear, Text.trimStart_cons_of_not_isBlank (by decide)]
    show ((readNumber Text.spanDigits (_ ++ '-' :: rest)).map _).bind _ = _
    rw [readNumber_padded hspan]
    exact hkept (by omega)

/-- A date in the calendar reads back from its characters, if `gap` steps over none of them. -/
theorem readCivil_chars {gap : List Char → List Char}
    (hgap : ∀ rest, gap ('-' :: rest) = '-' :: rest) {date : CivilDate}
    (hyear : -0x80000000 ≤ date.year ∧ date.year < 0x80000000) (hvalid : date.isValid = true)
    (rest : List Char) : readCivil gap (date.chars ++ rest) = .ok (date, gap rest) := by
  obtain ⟨hmonth, hday⟩ := CivilDate.bounds_of_isValid hvalid
  have hchars : date.chars ++ rest = yearChars date.year ++ '-' :: (Text.padded 2 date.month ++
      '-' :: (Text.padded 2 date.day ++ rest)) := by
    simp [CivilDate.chars]
  have hmark : ∀ later, readMark '-' (gap ('-' :: later)) = .ok later := by
    intro later
    rw [hgap]
    rfl
  rw [hchars, readCivil]
  simp only [Result.bind_eq_ok_iff]
  exact ⟨_, readYear_yearChars hyear _, _, hmark _, _, readField_padded (by decide) hmonth _, _,
    hmark _, _, readField_padded (by decide) hday _, rfl⟩

/-- **A day reads back from its text**, whatever blanks may stand between its parts: there are
none. -/
theorem readWith_text {gap : List Char → List Char} (hend : gap [] = [])
    (hgap : ∀ rest, gap ('-' :: rest) = '-' :: rest) (day : Day) :
    readWith gap day.text.toList = .ok day := by
  have hread := readCivil_chars hgap day.year_bounds (CivilDate.isValid_ofNumber day.number) []
  rw [hend, List.append_nil] at hread
  rw [text, String.toList_ofList, readWith, Result.bind_eq_ok_iff]
  refine ⟨_, hread, ?_⟩
  simp [ofCivil?_civil]

theorem readSpaced?_text (day : Day) : readSpaced? day.text = some day := by
  rw [readSpaced?, readWith_text rfl fun rest ↦ Text.trimStart_cons_of_not_isBlank (by decide) rest]
  rfl

end Day

end DailyBars
