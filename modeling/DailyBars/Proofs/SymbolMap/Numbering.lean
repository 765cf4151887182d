import DailyBars.Proofs.AssetId
import DailyBars.Proofs.SymbolMap.Entries
import Mathlib

/-!
# The numbering of symbols

New symbols are numbered from the one after the greatest number of a map on
(`SymbolMap.nextId?_eq_some_iff`), in the order in which each comes first
(`SymbolMap.newSymbols`), and all other symbols keep their numbers (`SymbolMap.Assigns`). The number
after the last one that is given is formed as well, so **an assignment comes to its end exactly if
one more number is left than it gives** (`SymbolMap.isSome_assign?_iff`).

Symbols come in lists, one after the other, and a map that starts empty **numbers them from zero on
in the order in which each comes first** (`SymbolMap.Numbers`): its next number is the count of
symbols so far, and each assignment carries this over to a longer list
(`SymbolMap.Numbers.assign`).
-/

namespace DailyBars

/-! ### First appearances -/

/-- What comes first in a list does so in every longer one, at the same place. -/
theorem eraseDups_isPrefix (symbols more : List String) :
    symbols.eraseDups <+: (symbols ++ more).eraseDups :=
  ⟨_, List.eraseDups_append.symm⟩

theorem length_eraseDups_le (symbols more : List String) :
    symbols.eraseDups.length ≤ (symbols ++ more).eraseDups.length :=
  (eraseDups_isPrefix symbols more).length_le

namespace SymbolMap

variable {map next : SymbolMap} {symbols more : List String} {symbol : String}
  {asset free : AssetId} {assigned : List (String × AssetId)}

/-! ### The next number -/

/-- The greatest number of a map. An empty map counts as if it were -1, since its next number is
zero. -/
def greatest (map : SymbolMap) : Int :=
  (map.entries.map fun entry ↦ entry.2.value.toInt).max?.getD (-1)

theorem greatest_of_eq_nil (h : map.entries = []) : map.greatest = -1 := by
  rw [greatest, h]
  rfl

theorem isGreatest_greatest (h : map.entries ≠ []) :
    IsGreatest {n | ∃ entry ∈ map.entries, entry.2.value.toInt = n} map.greatest := by
  have hne : map.entries.map (fun entry ↦ entry.2.value.toInt) ≠ [] := mt List.map_eq_nil_iff.1 h
  obtain ⟨n, hn⟩ := Option.ne_none_iff_exists'.1 (mt List.max?_eq_none_iff.1 hne)
  obtain ⟨hmem, hle⟩ := List.max?_eq_some_iff.1 hn
  rw [greatest, hn, Option.getD_some]
  refine ⟨List.mem_map.1 hmem, ?_⟩
  rintro _ ⟨entry, hentry, rfl⟩
  exact hle _ (List.mem_map.2 ⟨entry, hentry, rfl⟩)

theorem toInt_foldl_greatest (first : AssetId) (rest : List (String × AssetId)) :
    (rest.foldl (fun greatest entry ↦
      if greatest ≤ entry.2 then entry.2 else greatest) first).value.toInt =
        (rest.map fun entry ↦ entry.2.value.toInt).foldl max first.value.toInt := by
  induction rest generalizing first with
  | nil => rfl
  | cons entry rest ih =>
    have hmax : (if first ≤ entry.2 then entry.2 else first).value.toInt =
        max first.value.toInt entry.2.value.toInt := by
      simp only [max_def, AssetId.le_iff_toInt, apply_ite fun asset : AssetId ↦ asset.value.toInt]
    rw [List.foldl_cons, ih, hmax]
    rfl

theorem le_greatest (h : map.get? symbol = some asset) : asset.value.toInt ≤ map.greatest :=
  have hentry := get?_eq_some_iff.1 h
  (isGreatest_greatest (List.ne_nil_of_mem hentry)).2 ⟨_, hentry, rfl⟩

/-- The greatest number is one of the 64-bit numbers, as is -1. -/
theorem greatest_bounds (map : SymbolMap) : -2 ^ 63 ≤ map.greatest ∧ map.greatest < 2 ^ 63 := by
  by_cases h : map.entries = []
  · rw [greatest_of_eq_nil h]
    decide
  · obtain ⟨entry, -, hgreatest⟩ := (isGreatest_greatest h).1
    rw [← hgreatest]
    exact ⟨entry.2.value.le_toInt, entry.2.value.toInt_lt⟩

/-- **The next number is the one after the greatest**, if there is such a number. -/
theorem nextId?_eq_some_iff :
    map.nextId? = some asset ↔ asset.value.toInt = map.greatest + 1 := by
  cases hentries : map.entries with
  | nil =>
    rw [nextId?, greatest_of_eq_nil hentries, hentries, Option.some_inj, AssetId.eq_iff_toInt]
    exact eq_comm
  | cons first rest =>
    rw [nextId?, greatest, hentries, List.map_cons, List.max?_cons', Option.getD_some,
      ← toInt_foldl_greatest]
    exact AssetId.next?_eq_some_iff

/-! ### New symbols -/

/-- The symbols of a list that have no number yet, in the order in which each comes first. -/
def newSymbols (map : SymbolMap) (symbols : List String) : List String :=
  (symbols.filter fun symbol ↦ (map.get? symbol).isNone).eraseDups

theorem mem_newSymbols :
    symbol ∈ map.newSymbols symbols ↔ symbol ∈ symbols ∧ map.get? symbol = none := by
  rw [newSymbols, List.mem_eraseDups, List.mem_filter, Option.isNone_iff_eq_none]

theorem newSymbols_cons_of_some (h : map.get? symbol = some asset) :
    map.newSymbols (symbol :: symbols) = map.newSymbols symbols := by
  rw [newSymbols, List.filter_cons_of_neg (by rw [h]; exact Bool.false_ne_true), newSymbols]

/-- A new symbol comes first, and behind it all that are new once it has a number. -/
theorem newSymbols_cons_of_none (h : map.get? symbol = none) (asset : AssetId) :
    map.newSymbols (symbol :: symbols) =
      symbol :: (map.put symbol asset).newSymbols symbols := by
  rw [newSymbols, List.filter_cons_of_pos (by rw [h]; rfl), List.eraseDups_cons, newSymbols,
    List.filter_filter]
  refine congrArg (fun rest ↦ symbol :: List.eraseDups rest) (List.filter_congr fun other _ ↦ ?_)
  rw [get?_put]
  by_cases heq : other = symbol
  · rw [if_pos heq, heq, beq_self_eq_true]
    rfl
  · rw [if_neg heq, beq_false_of_ne heq]
    rfl

theorem nodup_newSymbols (map : SymbolMap) (symbols : List String) :
    (map.newSymbols symbols).Nodup := by
  induction symbols generalizing map with
  | nil => exact List.nodup_nil
  | cons symbol symbols ih =>
    cases h : map.get? symbol with
    | some asset =>
      rw [newSymbols_cons_of_some h]
      exact ih map
    | none =>
      rw [newSymbols_cons_of_none h default]
      refine List.nodup_cons.2 ⟨fun hmem ↦ ?_, ih _⟩
      have hnone := (mem_newSymbols.1 hmem).2
      rw [get?_put, if_pos rfl] at hnone
      exact Option.some_ne_none _ hnone

/-! ### Assigning -/

/-- A symbol with a number keeps it. -/
theorem assignFrom?_cons_of_some (h : map.get? symbol = some asset) :
    assignFrom? free map (symbol :: symbols) =
      (assignFrom? free map symbols).map (Prod.map ((symbol, asset) :: ·) id) := by
  rw [assignFrom?, h, Option.map_eq_bind]
  rfl

/-- A new symbol takes the number that is free and leaves the next one to the rest. -/
theorem assignFrom?_cons_of_none (h : map.get? symbol = none) :
    assignFrom? free map (symbol :: symbols) = free.next?.bind fun after ↦
      (assignFrom? after (map.put symbol free) symbols).map
        (Prod.map ((symbol, free) :: ·) id) := by
  rw [assignFrom?, h]
  simp only [Option.map_eq_bind]
  rfl

/-- What an assignment answers and leaves, whose new numbers start from one on: all symbols of the
list, in its order and with the numbers that they have in the end, and a map that has the old
numbers and, for new symbols, successive ones. -/
structure Assigns (map : SymbolMap) (symbols : List String) (start : Int)
    (assigned : List (String × AssetId)) (next : SymbolMap) : Prop where
  map_fst : assigned.map (·.1) = symbols
  get?_of_mem : ∀ entry ∈ assigned, next.get? entry.1 = some entry.2
  get?_iff : ∀ symbol asset, next.get? symbol = some asset ↔
    map.get? symbol = some asset ∨
      ∃ i : Nat, (map.newSymbols symbols)[i]? = some symbol ∧ asset.value.toInt = start + i

theorem assigns_of_assignFrom? (h : assignFrom? free map symbols = some (assigned, next)) :
    map.Assigns symbols free.value.toInt assigned next := by
  induction symbols generalizing free map assigned with
  | nil =>
    cases h
    exact {
      map_fst := rfl
      get?_of_mem := fun _ hentry ↦ absurd hentry List.not_mem_nil
      get?_iff := fun _ _ ↦ (or_iff_left fun ⟨_, hi, _⟩ ↦
        absurd (List.mem_of_getElem? hi) List.not_mem_nil).symm }
  | cons first symbols ih =>
    cases hget : map.get? first with
    | some known =>
      rw [assignFrom?_cons_of_some hget] at h
      obtain ⟨⟨others, last⟩, hrest, heq⟩ := Option.map_eq_some_iff.1 h
      cases heq
      obtain ⟨hsymbols, hnumbers, hiff⟩ := ih hrest
      refine ⟨congrArg (first :: ·) hsymbols, List.forall_mem_cons.2
        ⟨(hiff _ _).2 (.inl hget), hnumbers⟩, fun symbol asset ↦ ?_⟩
      rw [newSymbols_cons_of_some hget]
      exact hiff symbol asset
    | none =>
      rw [assignFrom?_cons_of_none hget] at h
      obtain ⟨after, hafter, h⟩ := Option.bind_eq_some_iff.1 h
      obtain ⟨⟨others, last⟩, hrest, heq⟩ := Option.map_eq_some_iff.1 h
      cases heq
      obtain ⟨hsymbols, hnumbers, hiff⟩ := ih hrest
      have hown : (map.put first free).get? first = some free := by rw [get?_put, if_pos rfl]
      refine ⟨congrArg (first :: ·) hsymbols, List.forall_mem_cons.2
        ⟨(hiff _ _).2 (.inl hown), hnumbers⟩, fun symbol asset ↦ ?_⟩
      rw [newSymbols_cons_of_none hget free, hiff, get?_put, AssetId.next?_eq_some_iff.1 hafter]
      -- The first symbol is the new one at the place 0, and the others are one place behind.
      constructor
      · rintro (hold | ⟨i, hi, hasset⟩)
        · split at hold
          · rename_i heq
            obtain rfl := Option.some.inj hold
            exact .inr ⟨0, congrArg some heq.symm, (add_zero _).symm⟩
          · exact .inl hold
        · exact .inr ⟨i + 1, hi, by rw [hasset]; push_cast; ring⟩
      · rintro (hold | ⟨_ | i, hi, hasset⟩)
        · left
          rw [if_neg]
          · exact hold
          · rintro rfl
            exact Option.some_ne_none _ (hold.symm.trans hget)
        · left
          rw [if_pos (Option.some.inj hi).symm, Option.some_inj, AssetId.eq_iff_toInt, hasset]
          exact (add_zero _).symm
        · exact .inr ⟨i, hi, by rw [hasset]; push_cast; ring⟩

/-- **What an assignment does**, if it comes to its end: new symbols are numbered from the one after
the greatest on. -/
theorem assigns_of_assign? (h : map.assign? symbols = some (assigned, next)) :
    map.Assigns symbols (map.greatest + 1) assigned next := by
  obtain ⟨free, hfree, h⟩ := Option.bind_eq_some_iff.1 h
  rw [← nextId?_eq_some_iff.1 hfree]
  exact assigns_of_assignFrom? h

theorem isSome_assignFrom?_iff : (assignFrom? free map symbols).isSome = true ↔
    free.value.toInt + (map.newSymbols symbols).length < 2 ^ 63 := by
  induction symbols generalizing free map with
  | nil =>
    refine iff_of_true rfl ?_
    rw [show (map.newSymbols []).length = 0 from rfl, Nat.cast_zero, add_zero]
    exact free.value.toInt_lt
  | cons first symbols ih =>
    cases hget : map.get? first with
    | some asset =>
      rw [assignFrom?_cons_of_some hget, Option.isSome_map, newSymbols_cons_of_some hget, ih]
    | none =>
      rw [assignFrom?_cons_of_none hget, newSymbols_cons_of_none hget free, List.length_cons]
      cases hafter : free.next? with
      | none =>
        have hfull := mt AssetId.isSome_next?_iff.2 (by rw [hafter]; exact Bool.false_ne_true)
        exact iff_of_false Bool.false_ne_true (by omega)
      | some after =>
        have hstep : free.value.toInt + ((map.put first free).newSymbols symbols).length + 1 =
            after.value.toInt + ((map.put first free).newSymbols symbols).length := by
          rw [AssetId.next?_eq_some_iff.1 hafter]
          ring
        rw [Option.bind_some, Option.isSome_map, Nat.cast_succ, ← add_assoc, hstep, ih]

/-- **An assignment comes to its end exactly if the numbers do not run out**: there has to be one
after the last that is given, or after the greatest if none is. -/
theorem isSome_assign?_iff : (map.assign? symbols).isSome = true ↔
    map.greatest + 1 + (map.newSymbols symbols).length < 2 ^ 63 := by
  have hlow := map.greatest_bounds.1
  rw [assign?]
  cases hfree : map.nextId? with
  | none =>
    refine iff_of_false Bool.false_ne_true fun hroom ↦ ?_
    have hnone := Option.eq_none_iff_forall_ne_some.1 hfree ⟨Int64.ofInt (map.greatest + 1)⟩
    exact hnone (nextId?_eq_some_iff.2 (Int64.toInt_ofInt_of_le (by omega) (by omega)))
  | some free =>
    rw [← nextId?_eq_some_iff.1 hfree, ← isSome_assignFrom?_iff]
    rfl

/-! ### Numbers from zero on -/

/-- A map numbers the symbols of a list: its numbers are their places, counted from zero, where each
symbol counts where it comes first. -/
def Numbers (map : SymbolMap) (symbols : List String) : Prop :=
  ∀ symbol asset, map.get? symbol = some asset ↔
    ∃ i : Nat, symbols.eraseDups[i]? = some symbol ∧ asset.value.toInt = i

theorem numbers_empty : empty.Numbers [] := by
  intro symbol asset
  simp [get?_empty]

/-- Only the symbols of the list have numbers. -/
theorem Numbers.get?_eq_none_iff (h : map.Numbers symbols)
    (hsize : symbols.eraseDups.length < 2 ^ 63) :
    map.get? symbol = none ↔ symbol ∉ symbols := by
  rw [← List.mem_eraseDups, List.mem_iff_getElem?, Option.eq_none_iff_forall_ne_some, not_exists]
  constructor
  · intro hnone i hi
    have hi' : i < 2 ^ 63 := (List.getElem?_eq_some_iff.1 hi).1.trans hsize
    exact hnone (.ofPlace i) ((h _ _).2 ⟨i, hi, AssetId.toInt_ofPlace hi'⟩)
  · intro hnot asset hasset
    obtain ⟨i, hi, -⟩ := (h _ _).1 hasset
    exact hnot i hi

/-- Different symbols have different numbers. -/
theorem Numbers.eq_of_get? {other : String} (h : map.Numbers symbols)
    (hsymbol : map.get? symbol = some asset) (hother : map.get? other = some asset) :
    symbol = other := by
  obtain ⟨i, hi, hasset⟩ := (h _ _).1 hsymbol
  obtain ⟨j, hj, hasset'⟩ := (h _ _).1 hother
  obtain rfl : i = j := Int.ofNat.inj (hasset.symm.trans hasset')
  exact Option.some.inj (hi.symm.trans hj)

/-- If the numbers are places, the greatest is that of the last place. -/
theorem Numbers.greatest_eq (h : map.Numbers symbols) (hsize : symbols.eraseDups.length < 2 ^ 63) :
    map.greatest = symbols.eraseDups.length - 1 := by
  have hplace : ∀ entry ∈ map.entries,
      ∃ i : Nat, i < symbols.eraseDups.length ∧ entry.2.value.toInt = i := by
    intro entry hentry
    obtain ⟨i, hi, hnumber⟩ := (h _ _).1 (get?_eq_some_iff.2 hentry)
    exact ⟨i, (List.getElem?_eq_some_iff.1 hi).1, hnumber⟩
  have hentry : ∀ i (hi : i < symbols.eraseDups.length),
      (symbols.eraseDups[i], AssetId.ofPlace i) ∈ map.entries := fun i hi ↦
    get?_eq_some_iff.1 <| (h _ _).2
      ⟨i, List.getElem?_eq_getElem hi, AssetId.toInt_ofPlace (hi.trans hsize)⟩
  by_cases hempty : map.entries = []
  · have hzero : symbols.eraseDups.length = 0 := by
      by_contra hne
      exact List.ne_nil_of_mem (hentry 0 (Nat.pos_of_ne_zero hne)) hempty
    rw [greatest_of_eq_nil hempty, hzero]
    rfl
  · obtain ⟨first, hfirst⟩ := List.exists_mem_of_ne_nil _ hempty
    obtain ⟨i, hi, -⟩ := hplace first hfirst
    have hlast : symbols.eraseDups.length - 1 < symbols.eraseDups.length := by omega
    refine (isGreatest_greatest hempty).unique ⟨⟨_, hentry _ hlast, ?_⟩, ?_⟩
    · rw [AssetId.toInt_ofPlace (by omega)]
      omega
    · rintro _ ⟨entry, hmem, rfl⟩
      obtain ⟨j, hj, hnumber⟩ := hplace entry hmem
      omega

/-- New symbols come first behind those that have numbers. -/
theorem Numbers.eraseDups_append (h : map.Numbers symbols)
    (hsize : symbols.eraseDups.length < 2 ^ 63) (more : List String) :
    (symbols ++ more).eraseDups = symbols.eraseDups ++ map.newSymbols more := by
  rw [List.eraseDups_append, newSymbols, List.removeAll]
  refine congrArg (symbols.eraseDups ++ ·.eraseDups) (List.filter_congr fun symbol _ ↦ ?_)
  rw [Bool.eq_iff_iff, Option.isNone_iff_eq_none, h.get?_eq_none_iff hsize]
  simp

/-- There are numbers for all symbols of a list as long as they are not too many. -/
theorem Numbers.exists_assign? (h : map.Numbers symbols)
    (hsize : (symbols ++ more).eraseDups.length < 2 ^ 63) :
    ∃ assigned next, map.assign? more = some (assigned, next) := by
  have hsize' := (length_eraseDups_le symbols more).trans_lt hsize
  have hsome : (map.assign? more).isSome = true := by
    rw [isSome_assign?_iff, h.greatest_eq hsize']
    rw [h.eraseDups_append hsize', List.length_append] at hsize
    omega
  obtain ⟨⟨assigned, next⟩, hassign⟩ := Option.isSome_iff_exists.1 hsome
  exact ⟨assigned, next, hassign⟩

/-- **Assigning numbers the symbols of a list behind those that were there.** -/
theorem Numbers.assign (h : map.Numbers symbols)
    (hassign : map.assign? more = some (assigned, next))
    (hsize : (symbols ++ more).eraseDups.length < 2 ^ 63) : next.Numbers (symbols ++ more) := by
  have hsize' := (length_eraseDups_le symbols more).trans_lt hsize
  intro symbol asset
  rw [(assigns_of_assign? hassign).get?_iff, h.greatest_eq hsize', sub_add_cancel,
    h.eraseDups_append hsize', h symbol asset]
  constructor
  · rintro (⟨i, hi, hasset⟩ | ⟨i, hi, hasset⟩)
    · refine ⟨i, ?_, hasset⟩
      rw [List.getElem?_append_left (List.getElem?_eq_some_iff.1 hi).1, hi]
    · refine ⟨symbols.eraseDups.length + i, ?_, by rw [hasset, Nat.cast_add]⟩
      rw [List.getElem?_append_right (Nat.le_add_right _ _), Nat.add_sub_cancel_left, hi]
  · rintro ⟨i, hi, hasset⟩
    rw [List.getElem?_append] at hi
    split at hi
    · exact .inl ⟨i, hi, hasset⟩
    · exact .inr ⟨i - symbols.eraseDups.length, hi, by omega⟩

end SymbolMap

end DailyBars
