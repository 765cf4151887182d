import DailyBars.Proofs.AssetId
import DailyBars.Proofs.Day.Ascending
import DailyBars.Proofs.Day.TextOrder
import DailyBars.Store.Basic
import Mathlib

/-!
# The rows of an asset

What a store holds is seen through the rows of one asset at a time. Adding bars leaves the rows of
all other assets **as they are** (`Store.assetRows_of_append?_of_ne`): they are a sorted part of
what is sorted, and the sort is stable. The rows of the asset itself are a rearrangement of old and
new ones (`Store.assetRows_of_append?`), and where the texts of the days are in the order of the
days, the rearrangement that is ascending is the only one there can be
(`Store.assetRows_eq_of_ascending`).

The bounds of an asset come from the first and the last of its rows, since the rows are ordered by
the texts that the bounds are the least and the greatest of (`Store.assetBounds?_eq_some_iff`).
-/

namespace DailyBars

namespace Binary64

/-- Both are numbers, and the same one; the two zeros are the same number. -/
def Equals (x y : Binary64) : Prop :=
  x.isNaN = false ∧ y.isNaN = false ∧ (x = y ∨ x.isZero = true ∧ y.isZero = true)

theorem dropZeroSign_equals {x : Binary64} (h : x.isNaN = false) : x.dropZeroSign.Equals x := by
  rw [dropZeroSign]
  split
  · rename_i hzero
    exact ⟨by decide, h, Or.inr ⟨by decide, hzero⟩⟩
  · exact ⟨h, h, Or.inl rfl⟩

end Binary64

/-- Volumes are served as they are. -/
theorem Field.present_volume (stored : Binary64) : volume.present stored = stored := rfl

namespace Bar

theorem value_volume (bar : Bar) : bar.value .volume = .ofInt bar.volume.toInt := rfl

@[simp] theorem stored_asset (bar : Bar) : bar.stored.asset = bar.asset := rfl

@[simp] theorem stored_day (bar : Bar) : bar.stored.day = bar.day := rfl

theorem map_day_stored (bars : List Bar) : (bars.map stored).map day = bars.map day := by
  rw [List.map_map]
  rfl

theorem value_stored_of_isPrice (bar : Bar) {field : Field} (h : field.isPrice = true) :
    bar.stored.value field = (bar.value field).dropZeroSign := by
  cases field with
  | openPrice => rfl
  | highPrice => rfl
  | lowPrice => rfl
  | closePrice => rfl
  | volume => cases h

theorem value_mem_prices (bar : Bar) {field : Field} (h : field.isPrice = true) :
    bar.value field ∈ bar.prices := by
  cases field with
  | volume => cases h
  | _ => simp [value, prices]

/-- The bars agree in all fields, prices being compared as numbers. -/
structure Equals (a b : Bar) : Prop where
  asset : a.asset = b.asset
  day : a.day = b.day
  prices : ∀ field, field.isPrice = true → (a.value field).Equals (b.value field)
  volume : a.volume = b.volume

/-- **A bar is stored as an equal one**, although the sign of a zero is lost. -/
theorem stored_equals {bar : Bar} (h : bar.hasNaN = false) : bar.stored.Equals bar where
  asset := rfl
  day := rfl
  prices field hprice := by
    have hnumber : ∀ price ∈ bar.prices, price.isNaN = false := by
      simpa [hasNaN] using h
    rw [bar.value_stored_of_isPrice hprice]
    exact Binary64.dropZeroSign_equals (hnumber _ (bar.value_mem_prices hprice))
  volume := rfl

theorem textLe_of_rowLe {a b : Bar} (h : a.rowLe b = true) (hasset : a.asset = b.asset) :
    Day.textLe a.day b.day = true := by
  rcases rowLe_iff.1 h with hlt | ⟨-, htext⟩
  · exact absurd hasset hlt.ne
  · exact htext

/-- What no two bars of a store should share. -/
def key (bar : Bar) : AssetId × Day :=
  (bar.asset, bar.day)

/-- Bars stand in the order of their assets. -/
theorem asset_le_of_rowLe {a b : Bar} (h : a.rowLe b = true) : a.asset ≤ b.asset := by
  rcases rowLe_iff.1 h with hlt | ⟨hasset, -⟩
  · exact hlt.le
  · exact hasset.le

end Bar

namespace Store

variable {store next : Store} {bars : List Bar} {asset : AssetId}

theorem mem_assetRows {bar : Bar} :
    bar ∈ store.assetRows asset ↔ bar ∈ store.rows ∧ bar.asset = asset := by
  rw [assetRows, List.mem_filter, decide_eq_true_eq]

theorem assetRows_ordered (store : Store) (asset : AssetId) :
    (store.assetRows asset).Pairwise fun a b ↦ a.rowLe b = true :=
  store.ordered.filter _

/-- The days of an asset are in the order of their texts. -/
theorem days_ordered (store : Store) (asset : AssetId) :
    ((store.assetRows asset).map Bar.day).Pairwise fun a b ↦ Day.textLe a b = true := by
  rw [List.pairwise_map]
  refine (store.assetRows_ordered asset).imp_of_mem fun ha hb hle ↦ ?_
  exact Bar.textLe_of_rowLe hle ((mem_assetRows.1 ha).2.trans (mem_assetRows.1 hb).2.symm)

/-- Two rows of one asset follow each other among the rows of this asset as in the store. -/
theorem pair_sublist_assetRows {a b : Bar} (hsub : [a, b].Sublist store.rows)
    (hasset : a.asset = b.asset) : [a, b].Sublist (store.assetRows b.asset) := by
  have hself : [a, b] = [a, b].filter fun bar ↦ bar.asset = b.asset := by simp [hasset]
  rw [hself]
  exact hsub.filter _

/-- **No key is stored twice where no asset has a day twice.** -/
theorem nodup_keys_iff :
    (store.rows.map Bar.key).Nodup ↔ ∀ asset, ((store.assetRows asset).map Bar.day).Nodup := by
  simp only [List.Nodup, List.pairwise_map]
  constructor
  · intro h asset
    refine (h.filter _).imp_of_mem fun {a b} ha hb hne heq ↦ hne ?_
    have hasset := (mem_assetRows.1 ha).2.trans (mem_assetRows.1 hb).2.symm
    exact Prod.ext hasset heq
  · intro h
    refine List.pairwise_iff_forall_sublist.2 fun {a b} hsub hkey ↦ ?_
    obtain ⟨hasset, hday⟩ : a.asset = b.asset ∧ a.day = b.day := Prod.ext_iff.1 hkey
    exact List.pairwise_iff_forall_sublist.1 (h b.asset) (pair_sublist_assetRows hsub hasset) hday

/-! ### Adding bars -/

theorem append?_eq_some_iff :
    store.append? bars = some next ↔
      bars.any Bar.hasNaN = false ∧ next = ofBars (store.rows ++ bars.map Bar.stored) := by
  rw [append?]
  cases hnan : bars.any Bar.hasNaN with
  | true => simp
  | false =>
    rw [if_neg Bool.false_ne_true, Option.some_inj, eq_comm]
    exact (and_iff_right rfl).symm

/-- A store is in order already. -/
theorem ofBars_rows (store : Store) : ofBars store.rows = store := by
  cases store with
  | mk rows ordered =>
    rw [ofBars, Store.mk.injEq]
    exact List.mergeSort_of_pairwise ordered

/-- Adding no bars changes nothing. -/
theorem append?_nil (store : Store) : store.append? [] = some store := by
  rw [append?_eq_some_iff, List.map_nil, List.append_nil, ofBars_rows]
  exact ⟨rfl, rfl⟩

/-- **Bars can be added** if all their prices are numbers. -/
theorem exists_append?_eq (store : Store) (hnumbers : ∀ bar ∈ bars, bar.hasNaN = false) :
    ∃ next, store.append? bars = some next :=
  ⟨_, append?_eq_some_iff.2
    ⟨List.any_eq_false.2 fun bar hbar ↦ by simp [hnumbers bar hbar], rfl⟩⟩

theorem rows_perm_of_append? (h : store.append? bars = some next) :
    next.rows.Perm (store.rows ++ bars.map Bar.stored) := by
  rw [(append?_eq_some_iff.1 h).2]
  exact rows_ofBars_perm _

/-- Bars that are in order already stay so among others. -/
theorem sublist_rows_ofBars {part : List Bar} (hpart : part.Pairwise fun a b ↦ a.rowLe b = true)
    (hsub : part.Sublist bars) : part.Sublist (ofBars bars).rows := by
  have htrans : ∀ a b c : Bar, a.rowLe b = true → b.rowLe c = true → a.rowLe c = true :=
    fun _ _ _ ↦ Bar.rowLe_trans
  exact List.sublist_mergeSort htrans Bar.rowLe_total hpart hsub

/-- **Adding bars keeps all rows, and their order.** -/
theorem rows_sublist_of_append? (h : store.append? bars = some next) :
    store.rows.Sublist next.rows := by
  rw [(append?_eq_some_iff.1 h).2]
  exact sublist_rows_ofBars store.ordered (List.sublist_append_left _ _)

theorem assetRows_of_append? (h : store.append? bars = some next) (asset : AssetId) :
    (next.assetRows asset).Perm
      (store.assetRows asset ++
        (bars.filter fun bar ↦ bar.asset = asset).map Bar.stored) := by
  have hperm := (rows_perm_of_append? h).filter fun bar ↦ bar.asset = asset
  rwa [List.filter_append, List.filter_map] at hperm

/-- The days of an asset after bars of it were added are the old ones and theirs. -/
theorem mem_days_of_append? (h : store.append? bars = some next)
    (hasset : ∀ bar ∈ bars, bar.asset = asset) {day : Day} :
    day ∈ (next.assetRows asset).map Bar.day ↔
      day ∈ (store.assetRows asset).map Bar.day ∨ ∃ bar ∈ bars, bar.day = day := by
  have hall : (bars.filter fun bar ↦ bar.asset = asset) = bars :=
    List.filter_eq_self.2 fun bar hbar ↦ decide_eq_true (hasset bar hbar)
  rw [((assetRows_of_append? h asset).map Bar.day).mem_iff, hall, List.map_append,
    Bar.map_day_stored, List.mem_append]
  exact or_congr_right List.mem_map

/-- **Adding bars of other assets does not touch the rows of an asset.** -/
theorem assetRows_of_append?_of_ne (h : store.append? bars = some next)
    (hne : ∀ bar ∈ bars, bar.asset ≠ asset) : next.assetRows asset = store.assetRows asset := by
  have hnone : (bars.filter fun bar ↦ bar.asset = asset) = [] := by
    refine List.filter_eq_nil_iff.2 fun bar hbar ↦ ?_
    simpa using hne bar hbar
  have hperm := assetRows_of_append? h asset
  rw [hnone, List.map_nil, List.append_nil] at hperm
  have hsub : (store.assetRows asset).Sublist next.rows :=
    List.filter_sublist.trans (rows_sublist_of_append? h)
  have hself : ((store.assetRows asset).filter fun bar ↦ bar.asset = asset) =
      store.assetRows asset :=
    List.filter_eq_self.2 fun bar hbar ↦ decide_eq_true (mem_assetRows.1 hbar).2
  have hsub' : (store.assetRows asset).Sublist (next.assetRows asset) := by
    rw [← hself]
    exact hsub.filter _
  exact (hsub'.eq_of_length hperm.length_eq.symm).symm

/-- **Different days fix the order of rows**: it is that of their texts. -/
theorem assetRows_eq_of_ordered {rows : List Bar} (hperm : (store.assetRows asset).Perm rows)
    (hnodup : (rows.map Bar.day).Nodup)
    (hrows : (rows.map Bar.day).Pairwise fun a b ↦ Day.textLe a b = true) :
    store.assetRows asset = rows := by
  rw [List.pairwise_map] at hrows
  have hasset : ∀ bar ∈ rows, bar.asset = asset := fun bar hbar ↦
    (mem_assetRows.1 (hperm.mem_iff.2 hbar)).2
  have hordered : rows.Pairwise fun a b ↦ a.rowLe b = true := hrows.imp_of_mem fun ha hb hle ↦
    Bar.rowLe_iff.2 (Or.inr ⟨(hasset _ ha).trans (hasset _ hb).symm, hle⟩)
  refine hperm.eq_of_pairwise (fun a b ha hb hab hba ↦ ?_) (store.assetRows_ordered asset) hordered
  have ha' := hperm.mem_iff.1 ha
  have hsame : a.asset = b.asset := (hasset a ha').trans (hasset b hb).symm
  have hday : a.day = b.day := Day.textLe_antisymm (Bar.textLe_of_rowLe hab hsame)
    (Bar.textLe_of_rowLe hba hsame.symm)
  exact List.inj_on_of_nodup_map hnodup ha' hb hday

/-- **Ascending days fix the order of rows**, if their texts are in the same order. -/
theorem assetRows_eq_of_ascending {p : Day → Prop} (htexts : Day.OrderedTexts p) {rows : List Bar}
    (hperm : (store.assetRows asset).Perm rows) (hdays : ∀ bar ∈ rows, p bar.day)
    (hrows : (rows.map Bar.day).Pairwise (· < ·)) : store.assetRows asset = rows :=
  assetRows_eq_of_ordered hperm hrows.nodup <|
    hrows.imp_of_mem fun ha hb hlt ↦
      htexts _ _ (List.forall_mem_map.2 hdays _ ha) (List.forall_mem_map.2 hdays _ hb)
        (le_of_lt hlt)

end Store

/-! ### Bounds -/

namespace Day

theorem foldl_textMin_of_forall {first : Day} {days : List Day}
    (h : ∀ day ∈ days, textLe first day = true) : days.foldl textMin first = first := by
  induction days with
  | nil => rfl
  | cons day rest ih =>
    rw [List.foldl_cons, textMin, if_pos (h day List.mem_cons_self)]
    exact ih fun other hother ↦ h other (List.mem_cons_of_mem _ hother)

theorem foldl_textMax_of_ordered {first : Day} {days : List Day}
    (h : (first :: days).Pairwise fun a b ↦ textLe a b = true) :
    some (days.foldl textMax first) = (first :: days).getLast? := by
  induction days generalizing first with
  | nil => rfl
  | cons day rest ih =>
    obtain ⟨hfirst, hrest⟩ := List.pairwise_cons.1 h
    rw [List.foldl_cons, textMax, if_pos (hfirst day List.mem_cons_self), ih hrest,
      List.getLast?_cons_cons]

/-- In a list that is ordered by the texts the bounds are the first and the last day. -/
theorem textBounds?_eq_some_iff {days : List Day} {first last : Day}
    (h : days.Pairwise fun a b ↦ textLe a b = true) :
    textBounds? days = some (first, last) ↔
      days.head? = some first ∧ days.getLast? = some last := by
  cases days with
  | nil => simp [textBounds?]
  | cons day rest =>
    rw [textBounds?, foldl_textMin_of_forall (List.pairwise_cons.1 h).1,
      ← foldl_textMax_of_ordered h]
    simp

theorem textBounds?_eq_none_iff {days : List Day} : textBounds? days = none ↔ days = [] := by
  cases days <;> simp [textBounds?]

/-- **Picking one of two days, again and again, ends with one that is below all**, in any order
that each pick respects. -/
theorem foldl_pick {pick : Day → Day → Day} {below : Day → Day → Prop}
    (hrefl : ∀ a, below a a) (htrans : ∀ a b c, below a b → below b c → below a c)
    (hpick : ∀ a b, (pick a b = a ∨ pick a b = b) ∧ below (pick a b) a ∧ below (pick a b) b)
    (first : Day) (days : List Day) :
    days.foldl pick first ∈ first :: days ∧
      ∀ day ∈ first :: days, below (days.foldl pick first) day := by
  induction days generalizing first with
  | nil =>
    refine ⟨List.mem_cons_self, fun day hday ↦ ?_⟩
    rw [List.mem_singleton.1 hday]
    exact hrefl first
  | cons second rest ih =>
    obtain ⟨hmem, hbelow⟩ := ih (pick first second)
    obtain ⟨hone, hfirst, hsecond⟩ := hpick first second
    have hstart := hbelow _ List.mem_cons_self
    rw [List.foldl_cons]
    refine ⟨?_, fun day hday ↦ ?_⟩
    · rcases List.mem_cons.1 hmem with heq | hlater
      · rw [heq]
        rcases hone with h | h <;> simp [h]
      · exact List.mem_cons_of_mem _ (List.mem_cons_of_mem _ hlater)
    · rcases List.mem_cons.1 hday with rfl | hday
      · exact htrans _ _ _ hstart hfirst
      rcases List.mem_cons.1 hday with rfl | hday
      · exact htrans _ _ _ hstart hsecond
      · exact hbelow day (List.mem_cons_of_mem _ hday)

/-- The bounds of days are two of them, and no text of them comes before the first or after the
last. -/
theorem textBounds?_spec {days : List Day} {first last : Day}
    (h : textBounds? days = some (first, last)) :
    (first ∈ days ∧ ∀ day ∈ days, textLe first day = true) ∧
      last ∈ days ∧ ∀ day ∈ days, textLe day last = true := by
  have hrefl : ∀ a, textLe a a = true := fun a ↦ by simpa using textLe_total a a
  have hflip : ∀ a b, ¬textLe a b = true → textLe b a = true := by
    intro a b hnot
    have htotal := textLe_total a b
    rw [Bool.or_eq_true] at htotal
    exact htotal.resolve_left hnot
  cases days with
  | nil => cases h
  | cons day rest =>
    rw [textBounds?, Option.some_inj, Prod.mk_inj] at h
    obtain ⟨rfl, rfl⟩ := h
    have hmin : ∀ a b, (textMin a b = a ∨ textMin a b = b) ∧
        textLe (textMin a b) a = true ∧ textLe (textMin a b) b = true := by
      intro a b
      rw [textMin]
      split
      · rename_i hle
        exact ⟨Or.inl rfl, hrefl a, hle⟩
      · rename_i hnot
        exact ⟨Or.inr rfl, hflip a b hnot, hrefl b⟩
    have hmax : ∀ a b, (textMax a b = a ∨ textMax a b = b) ∧
        textLe a (textMax a b) = true ∧ textLe b (textMax a b) = true := by
      intro a b
      rw [textMax]
      split
      · rename_i hle
        exact ⟨Or.inr rfl, hle, hrefl b⟩
      · rename_i hnot
        exact ⟨Or.inl rfl, hrefl a, hflip a b hnot⟩
    exact ⟨@foldl_pick textMin (fun a b ↦ textLe a b = true) hrefl
        (fun _ _ _ hab hbc ↦ textLe_trans hab hbc) hmin day rest,
      @foldl_pick textMax (fun a b ↦ textLe b a = true) hrefl
        (fun _ _ _ hab hbc ↦ textLe_trans hbc hab) hmax day rest⟩

end Day

namespace Store

/-- **The bounds of an asset are its first and its last row.** -/
theorem assetBounds?_eq_some_iff {store : Store} {asset : AssetId} {first last : Day} :
    store.assetBounds? asset = some (first, last) ↔
      ((store.assetRows asset).map Bar.day).head? = some first ∧
        ((store.assetRows asset).map Bar.day).getLast? = some last :=
  Day.textBounds?_eq_some_iff (store.days_ordered asset)

theorem assetBounds?_eq_none_iff {store : Store} {asset : AssetId} :
    store.assetBounds? asset = none ↔ store.assetRows asset = [] := by
  rw [assetBounds?, Day.textBounds?_eq_none_iff, List.map_eq_nil_iff]

end Store

end DailyBars
