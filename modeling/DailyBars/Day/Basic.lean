/-!
# Days

A day is its number of days since 1970-01-01, within the years -262143 to 262142. The bounds are
part of the type, so that every day has a civil date of its own and every operation that may step
over a bound says so in its type.
-/

namespace DailyBars

/-- A day of the proleptic Gregorian calendar, without a time of day. -/
@[ext]
structure Day where
  /-- Days since 1970-01-01. -/
  number : Int
  /-- The day lies in one of the years -262143 to 262142. -/
  inRange : -96465292 ≤ number ∧ number ≤ 95026236
deriving DecidableEq

namespace Day

/-- The first day of the year -262143. -/
def least : Day := ⟨-96465292, by decide⟩

/-- The last day of the year 262142. -/
def greatest : Day := ⟨95026236, by decide⟩

/-- The first day of the year 1970. -/
def epoch : Day := ⟨0, by decide⟩

instance : Inhabited Day := ⟨epoch⟩

instance : LE Day := ⟨fun a b ↦ a.number ≤ b.number⟩

instance : LT Day := ⟨fun a b ↦ a.number < b.number⟩

instance (a b : Day) : Decidable (a ≤ b) :=
  inferInstanceAs (Decidable (a.number ≤ b.number))

instance (a b : Day) : Decidable (a < b) :=
  inferInstanceAs (Decidable (a.number < b.number))

theorem le_iff {a b : Day} : a ≤ b ↔ a.number ≤ b.number := Iff.rfl

theorem lt_iff {a b : Day} : a < b ↔ a.number < b.number := Iff.rfl

protected theorem le_trans {a b c : Day} (hab : a ≤ b) (hbc : b ≤ c) : a ≤ c :=
  Int.le_trans hab hbc

protected theorem le_total (a b : Day) : a ≤ b ∨ b ≤ a := Int.le_total _ _

protected theorem lt_irrefl (a : Day) : ¬a < a := Int.lt_irrefl _

protected theorem lt_of_le_of_ne {a b : Day} (h : a ≤ b) (hne : a ≠ b) : a < b :=
  Int.lt_iff_le_and_ne.2 ⟨h, fun heq ↦ hne (Day.ext heq)⟩

/-- The day with a given number, if there is one. -/
def ofNumber? (number : Int) : Option Day :=
  if h : -96465292 ≤ number ∧ number ≤ 95026236 then some ⟨number, h⟩ else none

@[simp]
theorem ofNumber?_number (day : Day) : ofNumber? day.number = some day := by
  simp [ofNumber?, day.inRange]

theorem ofNumber?_eq_some_iff {n : Int} {day : Day} : ofNumber? n = some day ↔ day.number = n := by
  constructor
  · intro h
    unfold ofNumber? at h
    split at h
    · cases h; rfl
    · cases h
  · rintro rfl
    exact ofNumber?_number day

/-- The day after, if there is one. -/
def next? (day : Day) : Option Day :=
  ofNumber? (day.number + 1)

/-- Position in the week, counted from Monday. -/
def weekday (day : Day) : Int :=
  (day.number + 3) % 7

/-- Whether the day is a Saturday or a Sunday. -/
def isWeekend (day : Day) : Bool :=
  5 ≤ day.weekday

end Day

end DailyBars
