import DailyBars.Proofs.Day.Ascending
import Mathlib

/-!
# Ranges of days and slices of positions

A list of days is cut in two places to take what lies between two days or between two positions.
A slice is given the places; a range finds them by bisection, once with the days before its start
and once with the days up to its end. Days and positions are in the same order
(`DayList.get?_le_get?_iff`), so that **the slice between two positions is the range between the
days there** (`DayList.slice_eq_between`).

The ends of a range need not be days of the list, and then they have no positions. A range that
holds days can be narrowed to the first and the last of them, which do have positions, and nothing
is lost: a day of the list lies in the one exactly if it lies in the other
(`DayList.between_ends_iff`).
-/

namespace DailyBars

namespace DayList

variable {list : DayList} {start stop first last day : Day} {low high position : Nat}

/-! ### Days at positions -/

theorem mem_toList_iff : day ∈ list.toList ↔ ∃ position, list.get? position = some day := by
  simp only [List.mem_iff_getElem?, getElem?_toList]

theorem lt_size_iff : position < list.size ↔ ∃ day, list.get? position = some day :=
  ⟨fun h ↦ ⟨_, Array.getElem?_eq_getElem h⟩, fun ⟨_, h⟩ ↦ (Array.getElem?_eq_some_iff.1 h).1⟩

/-- **Days are in the order of their positions.** -/
theorem get?_le_get?_iff (hfirst : list.get? low = some first)
    (hlast : list.get? high = some last) : first ≤ last ↔ low ≤ high := by
  rw [← getElem?_toList] at hfirst hlast
  exact ⟨Day.le_of_getElem?_le list.ascending hfirst hlast,
    Day.getElem?_le_of_le list.ascending hfirst hlast⟩

/-- A position lies between two positions exactly if its day lies between the days there. -/
theorem position_between_iff (hfirst : list.get? low = some first)
    (hlast : list.get? high = some last) (hday : list.get? position = some day) :
    low ≤ position ∧ position ≤ high ↔ first ≤ day ∧ day ≤ last :=
  and_congr (get?_le_get?_iff hfirst hday).symm (get?_le_get?_iff hday hlast).symm

/-! ### Slices -/

theorem ascending_slice : (list.slice low high).Pairwise (· < ·) := by
  rw [slice]
  split
  · exact List.Pairwise.nil
  · rw [Array.toList_extract]
    exact Day.ascending_extract list.ascending _ _

/-- A slice has the days at its positions, if it ends at a position of the list. -/
theorem mem_slice : day ∈ list.slice low high ↔
    high < list.size ∧
      ∃ position, low ≤ position ∧ position ≤ high ∧ list.get? position = some day := by
  rw [slice]
  split
  · rename_i hnone
    refine iff_of_false List.not_mem_nil ?_
    rintro ⟨hsize, position, hlow, hhigh, -⟩
    omega
  · rename_i hsome
    rw [Array.toList_extract, Day.mem_extract_iff, and_iff_right (by omega)]
    simp only [Nat.lt_succ_iff, Array.getElem?_toList, get?]

/-- **The slice between two positions is the range between the days there.** -/
theorem slice_eq_between (hfirst : list.get? low = some first)
    (hlast : list.get? high = some last) : list.slice low high = list.between first last := by
  refine List.Pairwise.eq_of_mem_iff ascending_slice ascending_between fun day ↦ ?_
  rw [mem_slice, mem_between, and_iff_right (lt_size_iff.2 ⟨last, hlast⟩), mem_toList_iff]
  constructor
  · rintro ⟨position, hlow, hhigh, hday⟩
    exact ⟨⟨position, hday⟩, (position_between_iff hfirst hlast hday).1 ⟨hlow, hhigh⟩⟩
  · rintro ⟨⟨position, hday⟩, hrange⟩
    obtain ⟨hlow, hhigh⟩ := (position_between_iff hfirst hlast hday).2 hrange
    exact ⟨position, hlow, hhigh, hday⟩

/-! ### The ends of a range -/

/-- The first and the last day of a range have positions. -/
theorem exists_positions (h : list.between start stop ≠ []) : ∃ first last low high,
    (list.between start stop).head? = some first ∧
    (list.between start stop).getLast? = some last ∧
    list.indexOf? first = some low ∧ list.indexOf? last = some high :=
  ⟨_, _, _, _, List.head?_eq_some_head h, List.getLast?_eq_some_getLast h,
    indexOf?_of_mem (mem_between.1 (List.head_mem h)).1,
    indexOf?_of_mem (mem_between.1 (List.getLast_mem h)).1⟩

section Ends

variable (hfirst : (list.between start stop).head? = some first)
  (hlast : (list.between start stop).getLast? = some last)

include hfirst hlast

/-- **A range is narrowed to its first and its last day**, and no day of the list is lost. -/
theorem between_ends_iff (hday : day ∈ list.toList) :
    first ≤ day ∧ day ≤ last ↔ start ≤ day ∧ day ≤ stop := by
  constructor
  · rintro ⟨hlow, hhigh⟩
    exact ⟨le_trans (mem_between.1 (List.mem_of_head? hfirst)).2.1 hlow,
      le_trans hhigh (mem_between.1 (List.mem_of_getLast? hlast)).2.2⟩
  · intro hrange
    have hmem := mem_between.2 ⟨hday, hrange⟩
    exact ⟨Day.head_le_of_ascending ascending_between hfirst hmem,
      Day.le_getLast_of_ascending ascending_between hlast hmem⟩

theorem between_ends : list.between first last = list.between start stop := by
  refine List.Pairwise.eq_of_mem_iff ascending_between ascending_between fun day ↦ ?_
  rw [mem_between, mem_between]
  exact and_congr_right (between_ends_iff hfirst hlast)

/-- The positions of the days of a range are those from the first to the last of them. -/
theorem position_in_range_iff (hlow : list.get? low = some first)
    (hhigh : list.get? high = some last) :
    low ≤ position ∧ position ≤ high ↔
      ∃ day, list.get? position = some day ∧ start ≤ day ∧ day ≤ stop := by
  have hends : ∀ {day}, list.get? position = some day →
      (first ≤ day ∧ day ≤ last ↔ start ≤ day ∧ day ≤ stop) := fun hday ↦
    between_ends_iff hfirst hlast (mem_toList_iff.2 ⟨position, hday⟩)
  constructor
  · intro hbetween
    obtain ⟨day, hday⟩ :=
      lt_size_iff.1 (Nat.lt_of_le_of_lt hbetween.2 (lt_size_iff.2 ⟨last, hhigh⟩))
    exact ⟨day, hday, (hends hday).1 ((position_between_iff hlow hhigh hday).1 hbetween)⟩
  · rintro ⟨day, hday, hrange⟩
    exact (position_between_iff hlow hhigh hday).2 ((hends hday).2 hrange)

end Ends

/-- **Days, positions and ranges of days address the same list.** It holds the days that it is made
of, in ascending order and once each; a position is found for a day exactly if the day is found at
the position; a range holds the days of the list that lie between its ends; and where it holds any,
it is the slice from the position of the first of them to that of the last, and these are the
positions of the days in the range and of no other days. -/
theorem ranges_are_slices (days : List Day) :
    let list := ofList days
    (list.toList.Pairwise (· < ·) ∧ ∀ day, day ∈ list.toList ↔ day ∈ days) ∧
    (∀ day position, list.indexOf? day = some position ↔ list.get? position = some day) ∧
    ∀ start stop,
      list.between start stop = list.toList.filter (fun day ↦ start ≤ day && day ≤ stop) ∧
      (list.between start stop ≠ [] → ∃ first last low high,
        (list.between start stop).head? = some first ∧
        (list.between start stop).getLast? = some last ∧
        list.indexOf? first = some low ∧ list.indexOf? last = some high ∧
        list.slice low high = list.between start stop ∧
        ∀ position, low ≤ position ∧ position ≤ high ↔
          ∃ day, list.get? position = some day ∧ start ≤ day ∧ day ≤ stop) := by
  intro list
  have hposition : ∀ {day position},
      list.indexOf? day = some position ↔ list.get? position = some day := by
    intro day position
    rw [indexOf?_eq_some_iff, getElem?_toList]
  refine ⟨⟨list.ascending, fun day ↦ mem_ofList⟩, fun _ _ ↦ hposition, fun start stop ↦
    ⟨toList_between, fun hne ↦ ?_⟩⟩
  obtain ⟨first, last, low, high, hfirst, hlast, hlow, hhigh⟩ := exists_positions hne
  refine ⟨first, last, low, high, hfirst, hlast, hlow, hhigh, ?_, fun position ↦ ?_⟩
  · rw [slice_eq_between (hposition.1 hlow) (hposition.1 hhigh), between_ends hfirst hlast]
  · exact position_in_range_iff hfirst hlast (hposition.1 hlow) (hposition.1 hhigh)

end DayList

namespace Sample

/-- The days 1, 2, 5 and 7, not in order, and one of them twice. -/
def unsortedDays : List Day :=
  [⟨7, by decide⟩, ⟨2, by decide⟩, ⟨5, by decide⟩, ⟨2, by decide⟩, ⟨1, by decide⟩]

end Sample

namespace DayList

/-- From day 2, which is in the list, to day 6, which is not, there are the days 2 and 5 at the
positions 1 and 2, and no other position has a day of the range. -/
theorem range_of_unsortedDays :
    let list := ofList Sample.unsortedDays
    let range := list.between ⟨2, by decide⟩ ⟨6, by decide⟩
    range ≠ [] ∧ range = [⟨2, by decide⟩, ⟨5, by decide⟩] ∧
      list.indexOf? ⟨2, by decide⟩ = some 1 ∧ list.indexOf? ⟨5, by decide⟩ = some 2 ∧
      list.slice 1 2 = range ∧
      ∀ position, 1 ≤ position ∧ position ≤ 2 ↔ ∃ day : Day, list.get? position = some day ∧
        ⟨2, by decide⟩ ≤ day ∧ day ≤ ⟨6, by decide⟩ := by
  intro list range
  have hrange : (ofList Sample.unsortedDays).between ⟨2, by decide⟩ ⟨6, by decide⟩ =
      [⟨2, by decide⟩, ⟨5, by decide⟩] := by cbv
  have htwo : list.indexOf? ⟨2, by decide⟩ = some 1 := by cbv
  have hfive : list.indexOf? ⟨5, by decide⟩ = some 2 := by cbv
  have hne : range ≠ [] := fun hnil ↦ List.cons_ne_nil _ _ (hrange.symm.trans hnil)
  obtain ⟨-, -, hranges⟩ := ranges_are_slices Sample.unsortedDays
  obtain ⟨first, last, low, high, hfirst, hlast, hlow, hhigh, hslice, hpositions⟩ :=
    (hranges ⟨2, by decide⟩ ⟨6, by decide⟩).2 hne
  -- The ends of the range are the days 2 and 5, and these have the positions 1 and 2.
  obtain rfl := Option.some_inj.1 (hfirst.symm.trans (congrArg List.head? hrange))
  obtain rfl := Option.some_inj.1 (hlast.symm.trans (congrArg List.getLast? hrange))
  obtain rfl := Option.some_inj.1 (hlow.symm.trans htwo)
  obtain rfl := Option.some_inj.1 (hhigh.symm.trans hfive)
  exact ⟨hne, hrange, htwo, hfive, hslice, hpositions⟩

end DayList

end DailyBars
