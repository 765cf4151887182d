import DailyBars.Bisect
import DailyBars.Day.Basic

/-!
# Ascending lists of days

A `DayList` holds distinct days in ascending order and finds the position of a day by bisection.
The order is part of the type. The sessions of a dataset are such a list, and so are the holidays
of a calendar.
-/

namespace DailyBars

/-- Distinct days in ascending order. -/
structure DayList where
  days : Array Day
  ascending : days.toList.Pairwise (· < ·)

namespace DayList

/-- The days of a list. -/
def toList (list : DayList) : List Day :=
  list.days.toList

/-- A list of days in which neighbours differ: of each run of equal days one is kept. -/
def dropRepeats (days : List Day) : List Day :=
  days.foldr (fun day rest ↦ if rest.head? = some day then rest else day :: rest) []

theorem mem_dropRepeats {day : Day} {days : List Day} : day ∈ dropRepeats days ↔ day ∈ days := by
  induction days with
  | nil => simp [dropRepeats]
  | cons first rest ih =>
    have hstep : dropRepeats (first :: rest) =
        if (dropRepeats rest).head? = some first then dropRepeats rest
        else first :: dropRepeats rest := rfl
    rw [hstep]
    split
    · rename_i hhead
      have hmem : first ∈ dropRepeats rest := List.mem_of_head? hhead
      rw [List.mem_cons, ih]
      constructor
      · exact Or.inr
      · rintro (rfl | h)
        · exact ih.1 hmem
        · exact h
    · rw [List.mem_cons, List.mem_cons, ih]

theorem pairwise_dropRepeats {days : List Day} (h : days.Pairwise (· ≤ ·)) :
    (dropRepeats days).Pairwise (· < ·) := by
  induction days with
  | nil => simp [dropRepeats]
  | cons first rest ih =>
    obtain ⟨hfirst, hrest⟩ := List.pairwise_cons.1 h
    have hstep : dropRepeats (first :: rest) =
        if (dropRepeats rest).head? = some first then dropRepeats rest
        else first :: dropRepeats rest := rfl
    rw [hstep]
    split
    · exact ih hrest
    · rename_i hhead
      refine List.pairwise_cons.2 ⟨fun day hday ↦ ?_, ih hrest⟩
      refine Day.lt_of_le_of_ne (hfirst day (mem_dropRepeats.1 hday)) ?_
      rintro rfl
      cases hlist : dropRepeats rest with
      | nil => simp [hlist] at hday
      | cons second others =>
        rw [hlist] at hday hhead
        have hsorted := ih hrest
        rw [hlist] at hsorted
        rcases List.mem_cons.1 hday with rfl | hlater
        · exact hhead rfl
        · have hlt := (List.pairwise_cons.1 hsorted).1 _ hlater
          have hle := hfirst second (mem_dropRepeats.1 (by rw [hlist]; exact List.mem_cons_self))
          exact Day.lt_irrefl _ (Int.lt_of_lt_of_le hlt hle)

/-- The distinct days of a list, in ascending order. -/
def ofList (days : List Day) : DayList where
  days := (dropRepeats (days.mergeSort fun a b ↦ a ≤ b)).toArray
  ascending := by
    rw [List.toList_toArray]
    apply pairwise_dropRepeats
    refine (List.pairwise_mergeSort ?_ ?_ days).imp fun h ↦ by simpa using h
    · intro a b c hab hbc
      simpa using Day.le_trans (by simpa using hab) (by simpa using hbc)
    · intro a b
      simpa using Day.le_total a b

theorem mem_ofList {day : Day} {days : List Day} : day ∈ (ofList days).toList ↔ day ∈ days := by
  simp [ofList, toList, mem_dropRepeats, List.mem_mergeSort]

/-- The list without days. -/
def empty : DayList := ⟨#[], by simp⟩

instance : Inhabited DayList := ⟨empty⟩

def size (list : DayList) : Nat :=
  list.days.size

def isEmpty (list : DayList) : Bool :=
  list.days.isEmpty

/-- The first day. -/
def first? (list : DayList) : Option Day :=
  list.days[0]?

/-- The last day. -/
def last? (list : DayList) : Option Day :=
  list.days.back?

/-- The day at a position. -/
def get? (list : DayList) (position : Nat) : Option Day :=
  list.days[position]?

/-- The position of a day. -/
def indexOf? (list : DayList) (day : Day) : Option Nat :=
  let position := partitionPoint (fun other ↦ other < day) list.days
  if list.days[position]? = some day then some position else none

def contains (list : DayList) (day : Day) : Bool :=
  (list.indexOf? day).isSome

/-- The days at the positions `start` to `stop`, both included; none unless both are positions of
the list in this order. -/
def slice (list : DayList) (start stop : Nat) : List Day :=
  if stop < start ∨ list.size ≤ stop then []
  else (list.days.extract start (stop + 1)).toList

/-- The days from `start` to `stop`, both included. -/
def between (list : DayList) (start stop : Day) : List Day :=
  if stop < start then []
  else
    let low := partitionPoint (fun day ↦ day < start) list.days
    let high := partitionPoint (fun day ↦ day ≤ stop) list.days
    (list.days.extract low high).toList

end DayList

end DailyBars
