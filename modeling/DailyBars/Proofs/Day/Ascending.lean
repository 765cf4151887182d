import DailyBars.Day.List
import Mathlib

/-!
# Positions in ascending lists of days

The order of days is that of their numbers, and it is linear. In an ascending list the position of a
member is the number of members before it, its `Day.rank`. Ranks are what makes positions in
different lists comparable: where two lists agree between two days, the ranks of these days differ
by the same number in both (`Day.rank_add_rank`), whatever the lists hold elsewhere.

Bisection finds ranks, so that the lookups of a `DayList` come out as statements about members:
`DayList.indexOf?_eq_some_iff`, `DayList.contains_iff` and `DayList.toList_between`.

The range of days is bounded, so lists without repeats are short (`Day.length_le_of_nodup`).
-/

namespace DailyBars

namespace Day

/-! ### The order of days -/

instance : LinearOrder Day where
  le_refl day := Int.le_refl day.number
  le_trans _ _ _ := Day.le_trans
  lt_iff_le_not_ge _ _ := Int.lt_iff_le_and_not_ge
  le_antisymm _ _ hab hba := Day.ext (Int.le_antisymm hab hba)
  le_total := Day.le_total
  toDecidableLE := inferInstance
  toDecidableEq := inferInstance
  toDecidableLT := inferInstance

/-- The first day of an ascending list is the least. -/
theorem head_le_of_ascending {days : List Day} (h : days.Pairwise (· < ·)) {first day : Day}
    (hfirst : days.head? = some first) (hday : day ∈ days) : first ≤ day := by
  obtain ⟨rest, rfl⟩ := List.head?_eq_some_iff.1 hfirst
  rcases List.mem_cons.1 hday with rfl | hlater
  · exact le_refl _
  · exact le_of_lt ((List.pairwise_cons.1 h).1 _ hlater)

/-- The last day of an ascending list is the greatest. -/
theorem le_getLast_of_ascending {days : List Day} (h : days.Pairwise (· < ·)) {last day : Day}
    (hlast : days.getLast? = some last) (hday : day ∈ days) : day ≤ last := by
  obtain ⟨earlier, rfl⟩ := List.getLast?_eq_some_iff.1 hlast
  rcases List.mem_append.1 hday with hearlier | hsame
  · exact le_of_lt ((List.pairwise_append.1 h).2.2 _ hearlier _ (List.mem_singleton_self _))
  · rw [List.mem_singleton.1 hsame]

/-- Ascending days are continued on both sides by days before the first and after the last. -/
theorem ascending_surround {xs days zs : List Day} (hxs : xs.Pairwise (· < ·))
    (hdays : days.Pairwise (· < ·)) (hzs : zs.Pairwise (· < ·)) {first last : Day}
    (hfirst : days.head? = some first) (hlast : days.getLast? = some last)
    (hbefore : ∀ day ∈ xs, day < first) (hafter : ∀ day ∈ zs, last < day) :
    (xs ++ days ++ zs).Pairwise (· < ·) := by
  have hle : ∀ day ∈ xs ++ days, day ≤ last := by
    intro day hday
    rcases List.mem_append.1 hday with hx | hinner
    · exact le_trans (le_of_lt (hbefore day hx))
        (head_le_of_ascending hdays hfirst (List.mem_of_getLast? hlast))
    · exact le_getLast_of_ascending hdays hlast hinner
  refine List.pairwise_append.2 ⟨List.pairwise_append.2 ⟨hxs, hdays, fun a ha b hb ↦ ?_⟩, hzs,
    fun a ha b hb ↦ ?_⟩
  · exact lt_of_lt_of_le (hbefore a ha) (head_le_of_ascending hdays hfirst hb)
  · exact lt_of_le_of_lt (hle a ha) (hafter b hb)

/-! ### Ranks -/

/-- The number of days in a list that come before a day. -/
def rank (days : List Day) (day : Day) : Nat :=
  days.countP fun other ↦ other < day

/-- In an ascending list the days with a property that passes on to earlier days stand in front. -/
theorem getElem_iff_lt_countP {days : List Day} (h : days.Pairwise (· < ·)) {p : Day → Bool}
    (hp : ∀ a b, a < b → p b = true → p a = true) (i : Nat) (hi : i < days.length) :
    p days[i] = true ↔ i < days.countP p := by
  induction days generalizing i with
  | nil => exact absurd hi (Nat.not_lt_zero i)
  | cons first rest ih =>
    obtain ⟨hfirst, hrest⟩ := List.pairwise_cons.1 h
    by_cases hpfirst : p first = true
    · rw [List.countP_cons_of_pos hpfirst]
      cases i with
      | zero => simpa using hpfirst
      | succ i =>
        rw [List.getElem_cons_succ, ih hrest i (by simpa using hi)]
        omega
    · -- Nothing after `first` has the property either, since it would pass on to `first`.
      have hnone : (first :: rest).countP p = 0 := by
        refine List.countP_eq_zero.2 fun day hday hpday ↦ ?_
        rcases List.mem_cons.1 hday with rfl | hlater
        · exact hpfirst hpday
        · exact hpfirst (hp first day (hfirst day hlater) hpday)
      rw [hnone]
      refine iff_of_false (fun hpi ↦ ?_) (Nat.not_lt_zero i)
      exact List.countP_eq_zero.1 hnone _ (List.getElem_mem hi) hpi

theorem rank_eq_of_getElem? {days : List Day} (h : days.Pairwise (· < ·)) {i : Nat} {day : Day}
    (hi : days[i]? = some day) : rank days day = i := by
  obtain ⟨hlt, hget⟩ := List.getElem?_eq_some_iff.1 hi
  have hcut := getElem_iff_lt_countP h (p := fun other ↦ other < day)
    (fun a b hab hb ↦ by simpa using lt_trans hab (by simpa using hb))
  have hle : ¬i < rank days day := by
    rw [rank, ← hcut i hlt, hget]
    simp
  by_contra hne
  -- The day at the rank itself would lie at or after `day` and still before position `i`.
  have hrank : rank days day < days.length := by omega
  have hbefore : days[rank days day] < days[i] := List.pairwise_iff_getElem.1 h _ _ _ hlt (by omega)
  have hself := (hcut _ hrank).1 (by simpa [hget] using hbefore)
  exact absurd hself (Nat.lt_irrefl _)

/-- Positions in an ascending list are in the order of the days. -/
theorem le_of_getElem?_le {days : List Day} (h : days.Pairwise (· < ·)) {i j : Nat} {a b : Day}
    (hi : days[i]? = some a) (hj : days[j]? = some b) (hab : a ≤ b) : i ≤ j := by
  obtain ⟨hilt, rfl⟩ := List.getElem?_eq_some_iff.1 hi
  obtain ⟨hjlt, rfl⟩ := List.getElem?_eq_some_iff.1 hj
  by_contra hnot
  have hlt : days[j] < days[i] := List.pairwise_iff_getElem.1 h _ _ hjlt hilt (by omega)
  exact not_le.2 hlt hab

/-- Days of an ascending list are in the order of their positions. -/
theorem getElem?_le_of_le {days : List Day} (h : days.Pairwise (· < ·)) {i j : Nat} {a b : Day}
    (hi : days[i]? = some a) (hj : days[j]? = some b) (hij : i ≤ j) : a ≤ b := by
  by_contra hnot
  have hlt := not_le.1 hnot
  obtain rfl : i = j := Nat.le_antisymm hij (le_of_getElem?_le h hj hi (le_of_lt hlt))
  rw [Option.some_inj.1 (hi.symm.trans hj)] at hlt
  exact lt_irrefl _ hlt

theorem getElem?_rank {days : List Day} (h : days.Pairwise (· < ·)) {day : Day}
    (hday : day ∈ days) : days[rank days day]? = some day := by
  obtain ⟨i, hi⟩ := List.mem_iff_getElem?.1 hday
  rw [rank_eq_of_getElem? h hi, hi]

/-- The days of a list from one day on and before another. -/
theorem rank_eq_add (days : List Day) {low high : Day} (h : low ≤ high) :
    rank days high = rank days low + days.countP fun day ↦ low ≤ day && day < high := by
  induction days with
  | nil => rfl
  | cons first rest ih =>
    simp only [rank, List.countP_cons, Bool.and_eq_true, decide_eq_true_eq, Day.le_iff,
      Day.lt_iff] at *
    split <;> split <;> split <;> omega

/-- The days cut out of a list are those at the positions from `low` on and before `high`. -/
theorem mem_extract_iff {days : List Day} {low high : Nat} {day : Day} :
    day ∈ days.extract low high ↔ ∃ i, low ≤ i ∧ i < high ∧ days[i]? = some day := by
  rw [List.extract_eq_take_drop, List.mem_iff_getElem?]
  constructor
  · rintro ⟨i, hi⟩
    obtain ⟨hlt, hget⟩ : i < high - low ∧ days[low + i]? = some day := by
      simpa [List.getElem?_take, List.getElem?_drop] using hi
    exact ⟨low + i, by omega, by omega, hget⟩
  · rintro ⟨i, hlow, hhigh, hday⟩
    refine ⟨i - low, ?_⟩
    rw [List.getElem?_take_of_lt (by omega), List.getElem?_drop, Nat.add_sub_cancel' hlow, hday]

theorem ascending_extract {days : List Day} (h : days.Pairwise (· < ·)) (low high : Nat) :
    (days.extract low high).Pairwise (· < ·) := by
  rw [List.extract_eq_take_drop]
  exact h.drop.take

/-- The days before a day `low` and up to a day `high` are cut off by their numbers. -/
theorem extract_eq_filter {days : List Day} (h : days.Pairwise (· < ·)) (low high : Day) :
    days.extract (rank days low) (days.countP fun day ↦ day ≤ high) =
      days.filter fun day ↦ low ≤ day && day ≤ high := by
  have hlow := getElem_iff_lt_countP h (p := fun day ↦ day < low)
    (fun a b hab hb ↦ by simpa using lt_trans hab (by simpa using hb))
  have hhigh := getElem_iff_lt_countP h (p := fun day ↦ day ≤ high)
    (fun a b hab hb ↦ by simpa using le_trans (le_of_lt hab) (by simpa using hb))
  simp only [decide_eq_true_eq] at hlow hhigh
  refine List.Pairwise.eq_of_mem_iff (ascending_extract h _ _) (h.filter _) fun day ↦ ?_
  simp only [mem_extract_iff, List.mem_filter, Bool.and_eq_true, decide_eq_true_eq]
  constructor
  · rintro ⟨i, hstart, hstop, hday⟩
    obtain ⟨hbound, rfl⟩ := List.getElem?_eq_some_iff.1 hday
    refine ⟨List.getElem_mem hbound, not_lt.1 fun hbefore ↦ ?_, (hhigh i hbound).2 hstop⟩
    exact Nat.not_lt.2 hstart ((hlow i hbound).1 hbefore)
  · rintro ⟨hday, hle, hle'⟩
    obtain ⟨i, hi, rfl⟩ := List.mem_iff_getElem.1 hday
    refine ⟨i, Nat.not_lt.1 fun hlt ↦ ?_, (hhigh i hi).1 hle', List.getElem?_eq_getElem hi⟩
    exact not_lt.2 hle ((hlow i hi).2 hlt)

/-- **Where two ascending lists agree between two days, the ranks of these days are equally far
apart.** -/
theorem rank_add_rank {xs ys : List Day} (hx : xs.Pairwise (· < ·)) (hy : ys.Pairwise (· < ·))
    {low high : Day} (hle : low ≤ high)
    (h : ∀ day, low ≤ day → day < high → (day ∈ xs ↔ day ∈ ys)) :
    rank xs high + rank ys low = rank ys high + rank xs low := by
  have hsame : (xs.filter fun day ↦ low ≤ day && day < high) =
      ys.filter fun day ↦ low ≤ day && day < high := by
    refine List.Pairwise.eq_of_mem_iff (hx.filter _) (hy.filter _) fun day ↦ ?_
    simp only [List.mem_filter, Bool.and_eq_true, decide_eq_true_eq]
    exact ⟨fun ⟨hmem, hl, hh⟩ ↦ ⟨(h day hl hh).1 hmem, hl, hh⟩,
      fun ⟨hmem, hl, hh⟩ ↦ ⟨(h day hl hh).2 hmem, hl, hh⟩⟩
  rw [rank_eq_add xs hle, rank_eq_add ys hle, List.countP_eq_length_filter,
    List.countP_eq_length_filter, hsame]
  omega

/-! ### Bisection -/

theorem partitionPoint_eq_countP {days : Array Day} (h : days.toList.Pairwise (· < ·))
    {p : Day → Bool} (hp : ∀ a b, a < b → p b = true → p a = true) :
    partitionPoint p days = days.toList.countP p := by
  refine partitionPoint_eq ?_ fun i hi ↦ ?_
  · rw [← Array.length_toList]
    exact List.countP_le_length
  have hcut := getElem_iff_lt_countP h hp i (by simpa using hi)
  rw [Array.getElem_toList] at hcut
  rw [Bool.eq_iff_iff, hcut, decide_eq_true_eq]

theorem partitionPoint_lt {days : Array Day} (h : days.toList.Pairwise (· < ·)) (day : Day) :
    partitionPoint (fun other ↦ other < day) days = rank days.toList day :=
  partitionPoint_eq_countP h fun a b hab hb ↦ by simpa using lt_trans hab (by simpa using hb)

theorem partitionPoint_le {days : Array Day} (h : days.toList.Pairwise (· < ·)) (day : Day) :
    partitionPoint (fun other ↦ other ≤ day) days = days.toList.countP fun other ↦ other ≤ day :=
  partitionPoint_eq_countP h fun a b hab hb ↦ by
    simpa using le_trans (le_of_lt hab) (by simpa using hb)

/-! ### The number of days -/

/-- The number of all days. -/
def count : Nat := 191491529

/-- **A list without repeats has no more days than there are.** -/
theorem length_le_of_nodup {days : List Day} (h : days.Nodup) : days.length ≤ count := by
  have hinj : Function.Injective fun day : Day ↦ (day.number + 96465292).toNat := by
    intro a b hab
    have ha := a.inRange
    have hb := b.inRange
    exact Day.ext (by dsimp only at hab; omega)
  have hsub : days.map (fun day ↦ (day.number + 96465292).toNat) ⊆ List.range count := by
    intro n hn
    obtain ⟨day, -, rfl⟩ := List.mem_map.1 hn
    have := day.inRange
    rw [List.mem_range, count]
    omega
  have hle := ((h.map hinj).subperm hsub).length_le
  rwa [List.length_map, List.length_range] at hle

end Day

namespace DayList

/-! ### Lookups -/

theorem getElem?_toList {list : DayList} {position : Nat} :
    list.toList[position]? = list.get? position := by
  rw [toList, get?, Array.getElem?_toList]

theorem indexOf?_eq_some_iff {list : DayList} {day : Day} {position : Nat} :
    list.indexOf? day = some position ↔ list.toList[position]? = some day := by
  have hget : ∀ i : Nat, list.days[i]? = list.toList[i]? := fun _ ↦ getElem?_toList.symm
  rw [indexOf?]
  simp only [Day.partitionPoint_lt list.ascending, hget]
  show (if list.toList[Day.rank list.toList day]? = some day then
    some (Day.rank list.toList day) else none) = some position ↔ _
  constructor
  · split
    · rintro ⟨rfl⟩
      assumption
    · intro h
      cases h
  · intro h
    have hrank : Day.rank list.toList day = position := Day.rank_eq_of_getElem? list.ascending h
    rw [hrank, if_pos h]

theorem indexOf?_eq_none_iff {list : DayList} {day : Day} :
    list.indexOf? day = none ↔ day ∉ list.toList := by
  rw [List.mem_iff_getElem?, Option.eq_none_iff_forall_ne_some, not_exists]
  exact forall_congr' fun i ↦ not_congr indexOf?_eq_some_iff

theorem indexOf?_of_mem {list : DayList} {day : Day} (h : day ∈ list.toList) :
    list.indexOf? day = some (Day.rank list.toList day) :=
  indexOf?_eq_some_iff.2 (Day.getElem?_rank list.ascending h)

theorem contains_iff {list : DayList} {day : Day} :
    list.contains day = true ↔ day ∈ list.toList := by
  rw [contains, Option.isSome_iff_ne_none, ne_eq, indexOf?_eq_none_iff, not_not]

/-- **The days between two days are those of the list that lie between them.** -/
theorem toList_between {list : DayList} {start stop : Day} :
    list.between start stop = list.toList.filter fun day ↦ start ≤ day && day ≤ stop := by
  rw [between]
  split
  · rename_i hinverted
    refine (List.filter_eq_nil_iff.2 fun day _ hday ↦ ?_).symm
    simp only [Bool.and_eq_true, decide_eq_true_eq, Day.le_iff, Day.lt_iff] at *
    omega
  · rw [Day.partitionPoint_lt list.ascending, Day.partitionPoint_le list.ascending,
      Array.toList_extract]
    exact Day.extract_eq_filter list.ascending start stop

theorem mem_between {list : DayList} {start stop day : Day} :
    day ∈ list.between start stop ↔ day ∈ list.toList ∧ start ≤ day ∧ day ≤ stop := by
  rw [toList_between, List.mem_filter, Bool.and_eq_true, decide_eq_true_eq, decide_eq_true_eq]

theorem ascending_between {list : DayList} {start stop : Day} :
    (list.between start stop).Pairwise (· < ·) := by
  rw [toList_between]
  exact list.ascending.filter _

end DayList

end DailyBars
