import DailyBars.Day.Text
import DailyBars.Proofs.Bytes.SelfDelimiting
import DailyBars.Proofs.Day.Ascending
import Mathlib

/-!
# The order of the texts of days

A store orders the days of an asset by their texts. No two days have the same text
(`Day.text_injective`), and a text shows where it ends, although years are not of one width
(`Day.selfDelimiting_text`). But **the order of the texts is not that of the days**: a sign comes
before all digits, so that the year 10000 comes before the year 9999, and of two years before the
year 0 the earlier one has the greater number. Certain days may be in order nevertheless
(`Day.OrderedTexts`). Those of the years 0 to 9999 are: none of their texts has a sign, and all have
the same ten places (`Day.orderedTexts_isUnsigned`).

The last fact is put together from two orders that are lexicographic for different reasons:

* a later day has a later civil date (`Day.civil_precedes_of_lt`), because the year that holds a
  number of days never falls (`CivilDate.yearOfDays_mono`) and the date of a day never falls within
  a year that starts in March;
* a greater number, padded to the same width, has a greater text, **whatever follows the digits**
  (`Text.padded_append_lt`), so that the parts of a date can be compared one after the other.
-/

namespace DailyBars

namespace CivilDate

/-! ### The order of civil dates -/

/-- One date comes before another: by the year, then by the month, then by the day. -/
def Precedes (a b : CivilDate) : Prop :=
  a.year < b.year ∨ a.year = b.year ∧ (a.month < b.month ∨ a.month = b.month ∧ a.day < b.day)

/-- The month and the day of the month have at most two digits each. -/
def IsShort (date : CivilDate) : Prop :=
  date.month < 100 ∧ date.day < 100

/-- A greater number of days lies in the same year or in a later one. The parts are compared from
the greatest on: eras, centuries, cycles, years. -/
theorem yearOfDays_mono {m n : Int} (h : m ≤ n) : yearOfDays m ≤ yearOfDays n := by
  rw [yearOfDays, yearOfDays]
  obtain hera | hera : m / 146097 < n / 146097 ∨ m / 146097 = n / 146097 := by omega
  · omega
  have hrest : m % 146097 ≤ n % 146097 := by omega
  have hm : 0 ≤ m % 146097 ∧ m % 146097 < 146097 := by omega
  have hn : n % 146097 < 146097 := by omega
  rw [hera]
  generalize m % 146097 = m' at *
  generalize n % 146097 = n' at *
  obtain hcentury | hcentury :
      min (m' / 36524) 3 < min (n' / 36524) 3 ∨ min (m' / 36524) 3 = min (n' / 36524) 3 := by omega
  · omega
  rw [hcentury]
  obtain ⟨u, hu⟩ : ∃ u, u = m' - 36524 * min (n' / 36524) 3 := ⟨_, rfl⟩
  obtain ⟨v, hv⟩ : ∃ v, v = n' - 36524 * min (n' / 36524) 3 := ⟨_, rfl⟩
  rw [← hu, ← hv]
  have huv : 0 ≤ u ∧ u ≤ v := by omega
  obtain hcycle | hcycle : u / 1461 < v / 1461 ∨ u / 1461 = v / 1461 := by omega
  · omega
  · omega

theorem ofMarch_precedes {year m n : Int} (hm : 0 ≤ m) (hmn : m < n) (hn : n < 366) :
    (ofMarch year m).Precedes (ofMarch year n) := by
  unfold ofMarch Precedes daysBeforeMonth
  dsimp only
  split <;> split <;> omega

theorem ofMarch_precedes_of_year_lt {y z m n : Int} (hyz : y < z) (hm : 0 ≤ m ∧ m < 366)
    (hn : 0 ≤ n ∧ n < 366) : (ofMarch y m).Precedes (ofMarch z n) := by
  unfold ofMarch Precedes daysBeforeMonth
  dsimp only
  split <;> split <;> omega

theorem isShort_ofMarch {year n : Int} (hlow : 0 ≤ n) (hhigh : n < 366) :
    (ofMarch year n).IsShort := by
  unfold ofMarch IsShort daysBeforeMonth
  dsimp only
  split <;> omega

/-- **A greater number has a later date.** -/
theorem ofNumber_precedes {m n : Int} (h : m < n) : (ofNumber m).Precedes (ofNumber n) := by
  have hm := daysBeforeYear_yearOfDays (m + 719468)
  have hn := daysBeforeYear_yearOfDays (n + 719468)
  have hyear : yearOfDays (m + 719468) ≤ yearOfDays (n + 719468) := yearOfDays_mono (by omega)
  rw [ofNumber, ofNumber]
  rcases Int.lt_or_eq_of_le hyear with hlt | heq
  · exact ofMarch_precedes_of_year_lt hlt (by omega) (by omega)
  · rw [heq] at hm ⊢
    exact ofMarch_precedes (by omega) (by omega) (by omega)

theorem isShort_ofNumber (n : Int) : (ofNumber n).IsShort := by
  have h := daysBeforeYear_yearOfDays (n + 719468)
  exact isShort_ofMarch (by omega) (by omega)

end CivilDate

theorem Day.civil_precedes_of_lt {a b : Day} (h : a < b) : a.civil.Precedes b.civil :=
  CivilDate.ofNumber_precedes h

/-! ### The order of padded numbers -/

namespace Text

/-- The last digit of a padded number stands alone, and the rest is padded to one place less. -/
theorem padded_succ {width : Nat} (hwidth : 0 < width) (n : Nat) :
    padded (width + 1) n = padded width (n / 10) ++ [(n % 10).digitChar] := by
  obtain hn | hn := Nat.lt_or_ge n 10
  · obtain ⟨w, rfl⟩ := Nat.exists_eq_add_of_lt hwidth
    have hzero : n / 10 = 0 := by omega
    have hlast : n % 10 = n := by omega
    simp [padded, Nat.toDigits_of_lt_base hn, hzero, hlast, ← List.replicate_succ']
  · simp [padded, Nat.toDigits_of_base_le (by decide : 1 < 10) hn]

theorem digitChar_lt {m n : Nat} (h : m < n) (hn : n < 10) : m.digitChar < n.digitChar := by
  have key : ∀ n : Fin 10, ∀ m : Fin n.val, m.val.digitChar < n.val.digitChar := by decide
  exact key ⟨n, hn⟩ ⟨m, h⟩

/-- **A greater number of the same width has a greater text, whatever follows.** By induction on
the width, taking off the last digits: where the rest decides, it decides before they are read. -/
theorem padded_append_lt {width m n : Nat} (hwidth : 0 < width) (h : m < n)
    (hn : n < 10 ^ width) (xs ys : List Char) :
    padded width m ++ xs < padded width n ++ ys := by
  induction width, hwidth using Nat.le_induction generalizing m n xs ys with
  | base =>
    have hn' : n < 10 := by simpa using hn
    have hm' : m < 10 := by omega
    simp only [padded, Nat.toDigits_of_lt_base hm', Nat.toDigits_of_lt_base hn']
    exact List.cons_lt_cons_iff.2 (Or.inl (digitChar_lt h hn'))
  | succ width hwidth ih =>
    rw [padded_succ hwidth, padded_succ hwidth, List.append_assoc, List.append_assoc]
    obtain hrest | hrest : m / 10 < n / 10 ∨ m / 10 = n / 10 := by omega
    · exact ih hrest (by rw [Nat.pow_succ] at hn; omega) _ _
    · rw [hrest]
      refine List.append_left_lt (List.cons_lt_cons_iff.2 (Or.inl ?_))
      exact digitChar_lt (by omega) (by omega)

theorem padded_inj {width m n : Nat} (h : padded width m = padded width n) : m = n := by
  rw [← ofDigits_padded width m, h, ofDigits_padded]

theorem length_padded {width n : Nat} (hwidth : 0 < width) (h : n < 10 ^ width) :
    (padded width n).length = width := by
  induction width, hwidth using Nat.le_induction generalizing n with
  | base => simp [padded, Nat.toDigits_of_lt_base (by simpa using h : n < 10)]
  | succ width hwidth ih =>
    rw [padded_succ hwidth, List.length_append, List.length_singleton,
      ih (by rw [Nat.pow_succ] at h; omega)]

/-- The first character of a padded number is no sign. -/
theorem cons_ne_padded_append {c : Char} (hc : c.isDigit = false) (rest : List Char)
    (width n : Nat) (more : List Char) : c :: rest ≠ padded width n ++ more := by
  intro h
  obtain ⟨first, later, hpadded⟩ := List.exists_cons_of_ne_nil (padded_ne_nil width n)
  have hdigit := isDigit_of_mem_padded (hpadded ▸ List.mem_cons_self)
  rw [hpadded] at h
  rw [← (List.cons.inj h).1, hc] at hdigit
  cases hdigit

/-- A padded number ends at the first mark. -/
theorem padded_append_cons_inj {width m n : Nat} {mark : Char} (hmark : mark.isDigit = false)
    {xs ys : List Char} (h : padded width m ++ mark :: xs = padded width n ++ mark :: ys) :
    m = n ∧ xs = ys := by
  have htake : ∀ (k : Nat) (rest : List Char),
      (padded width k ++ mark :: rest).takeWhile Char.isDigit = padded width k := by
    intro k rest
    rw [List.takeWhile_append_of_pos fun _ ↦ isDigit_of_mem_padded,
      List.takeWhile_cons_of_neg (by rw [hmark]; exact Bool.false_ne_true), List.append_nil]
  obtain rfl : m = n := padded_inj (by rw [← htake m xs, h, htake])
  exact ⟨rfl, (List.cons.inj (List.append_cancel_left h)).2⟩

end Text

/-! ### Different days -/

/-- Years are told apart by their signs, and where these are the same by their digits, which end at
the hyphen that follows. -/
theorem yearChars_append_cons_inj {y z : Int} {xs ys : List Char}
    (h : yearChars y ++ '-' :: xs = yearChars z ++ '-' :: ys) : y = z ∧ xs = ys := by
  have hminus := Text.cons_ne_padded_append (by decide : '-'.isDigit = false)
  have hplus := Text.cons_ne_padded_append (by decide : '+'.isDigit = false)
  unfold yearChars at h
  split at h
  · split at h
    · obtain ⟨habs, hrest⟩ := Text.padded_append_cons_inj (by decide) (List.cons.inj h).2
      exact ⟨by omega, hrest⟩
    split at h
    · exact absurd h (hminus _ _ _ _)
    · exact absurd (List.cons.inj h).1 (by decide)
  split at h
  · split at h
    · exact absurd h.symm (hminus _ _ _ _)
    split at h
    · obtain ⟨habs, hrest⟩ := Text.padded_append_cons_inj (by decide) h
      exact ⟨by omega, hrest⟩
    · exact absurd h.symm (hplus _ _ _ _)
  · split at h
    · exact absurd (List.cons.inj h).1 (by decide)
    split at h
    · exact absurd h (hplus _ _ _ _)
    · obtain ⟨habs, hrest⟩ := Text.padded_append_cons_inj (by decide) (List.cons.inj h).2
      exact ⟨by omega, hrest⟩

theorem CivilDate.chars_append_inj {a b : CivilDate} (ha : a.IsShort) (hb : b.IsShort)
    {xs ys : List Char} (h : a.chars ++ xs = b.chars ++ ys) : a = b ∧ xs = ys := by
  unfold CivilDate.chars at h
  simp only [List.append_assoc, List.cons_append] at h
  obtain ⟨hyear, h⟩ := yearChars_append_cons_inj h
  obtain ⟨hmonth, h⟩ := Text.padded_append_cons_inj (by decide) h
  -- Nothing ends the day of the month, but it always has two digits.
  obtain ⟨hday, hrest⟩ := List.append_inj h (by
    rw [Text.length_padded (by decide) ha.2, Text.length_padded (by decide) hb.2])
  exact ⟨CivilDate.ext hyear hmonth (Text.padded_inj hday), hrest⟩

theorem isDigit_of_mem_yearChars {year : Int} {c : Char} (hc : c ∈ yearChars year) :
    c.isDigit = true ∨ c = '-' ∨ c = '+' := by
  unfold yearChars at hc
  split at hc
  · rcases List.mem_cons.1 hc with rfl | hc
    · exact .inr (.inl rfl)
    · exact .inl (Text.isDigit_of_mem_padded hc)
  split at hc
  · exact .inl (Text.isDigit_of_mem_padded hc)
  · rcases List.mem_cons.1 hc with rfl | hc
    · exact .inr (.inr rfl)
    · exact .inl (Text.isDigit_of_mem_padded hc)

/-- The characters of a date are digits and signs. -/
theorem CivilDate.isDigit_of_mem_chars {date : CivilDate} {c : Char} (hc : c ∈ date.chars) :
    c.isDigit = true ∨ c = '-' ∨ c = '+' := by
  unfold chars at hc
  rcases List.mem_append.1 hc with hc | hc
  · rcases List.mem_append.1 hc with hc | hc
    · exact isDigit_of_mem_yearChars hc
    · rcases List.mem_cons.1 hc with rfl | hc
      · exact .inr (.inl rfl)
      · exact .inl (Text.isDigit_of_mem_padded hc)
  · rcases List.mem_cons.1 hc with rfl | hc
    · exact .inr (.inl rfl)
    · exact .inl (Text.isDigit_of_mem_padded hc)

/-- **A text of a day shows where it ends**, whatever follows. -/
theorem Day.selfDelimiting_text : SelfDelimiting fun day : Day ↦ day.text.toList := by
  intro a b xs ys h
  simp only [text, String.toList_ofList] at h
  obtain ⟨hcivil, hrest⟩ := CivilDate.chars_append_inj (CivilDate.isShort_ofNumber _)
    (CivilDate.isShort_ofNumber _) h
  exact ⟨civil_injective hcivil, hrest⟩

/-- **No two days have the same text.** -/
theorem Day.text_injective {a b : Day} (h : a.text = b.text) : a = b :=
  selfDelimiting_text.injective (congrArg String.toList h)

/-! ### The order of texts -/

theorem yearChars_eq_padded {year : Int} (hlow : 0 ≤ year) (hhigh : year ≤ 9999) :
    yearChars year = Text.padded 4 year.natAbs := by
  rw [yearChars, if_neg (Int.not_lt.2 hlow), if_pos hhigh]

theorem CivilDate.chars_lt {a b : CivilDate} (h : a.Precedes b) (ha : 0 ≤ a.year)
    (hb : b.year ≤ 9999) (hshort : b.IsShort) : a.chars < b.chars := by
  have hle : a.year ≤ b.year := by
    rcases h with h | ⟨h, -⟩ <;> omega
  unfold CivilDate.chars
  rw [yearChars_eq_padded ha (by omega), yearChars_eq_padded (by omega) hb, List.append_assoc,
    List.append_assoc]
  rcases h with hlt | ⟨hyear, hlt | ⟨hmonth, hlt⟩⟩
  · exact Text.padded_append_lt (by decide) (by omega) (by omega) _ _
  · rw [hyear]
    refine List.append_left_lt (List.cons_lt_cons_iff.2 (Or.inr ⟨rfl, ?_⟩))
    exact Text.padded_append_lt (by decide) hlt hshort.1 _ _
  · rw [hyear, hmonth]
    refine List.append_left_lt (List.cons_lt_cons_iff.2 (Or.inr ⟨rfl, List.append_left_lt ?_⟩))
    refine List.cons_lt_cons_iff.2 (Or.inr ⟨rfl, ?_⟩)
    simpa using Text.padded_append_lt (by decide) hlt hshort.2 [] []

namespace Day

/-- A day of the years 0 to 9999, the ones whose text has no sign. -/
def IsUnsigned (day : Day) : Prop :=
  0 ≤ day.civil.year ∧ day.civil.year ≤ 9999

instance (day : Day) : Decidable day.IsUnsigned :=
  inferInstanceAs (Decidable (_ ∧ _))

theorem text_lt_of_lt {a b : Day} (ha : a.IsUnsigned) (hb : b.IsUnsigned) (h : a < b) :
    a.text < b.text := by
  have hchars : a.civil.chars < b.civil.chars :=
    CivilDate.chars_lt (civil_precedes_of_lt h) ha.1 hb.2 (CivilDate.isShort_ofNumber _)
  rw [String.lt_iff_toList_lt]
  simpa [text] using hchars

theorem textLe_antisymm {a b : Day} (hab : textLe a b = true) (hba : textLe b a = true) :
    a = b := by
  rw [textLe, decide_eq_true_eq] at hab hba
  exact text_injective (String.le_antisymm hab hba)

/-- The texts of certain days are in the order of the days. -/
def OrderedTexts (p : Day → Prop) : Prop :=
  ∀ a b, p a → p b → a ≤ b → textLe a b = true

/-- Where the texts are in the order of the days, the days are in that of the texts. -/
theorem OrderedTexts.textLe_iff_le {p : Day → Prop} (h : OrderedTexts p) {a b : Day} (ha : p a)
    (hb : p b) : textLe a b = true ↔ a ≤ b := by
  refine ⟨fun hle ↦ ?_, h a b ha hb⟩
  rcases le_total a b with hab | hba
  · exact hab
  · rw [textLe_antisymm hle (h b a hb ha hba)]

/-- **Among the years 0 to 9999 the texts of days are in the order of the days.** -/
theorem orderedTexts_isUnsigned : OrderedTexts IsUnsigned := by
  intro a b ha hb h
  rw [textLe, decide_eq_true_eq]
  by_cases heq : a = b
  · rw [heq]
  · exact (text_lt_of_lt ha hb (lt_of_le_of_ne h heq)).le

theorem textLe_iff_le {a b : Day} (ha : a.IsUnsigned) (hb : b.IsUnsigned) :
    textLe a b = true ↔ a ≤ b :=
  orderedTexts_isUnsigned.textLe_iff_le ha hb

end Day

end DailyBars
