import DailyBars.Proofs.Reader.Lookups
import DailyBars.Proofs.Reader.Queries
import Mathlib

/-!
# Single values

A single value is read from a cached column by its row, and from the store by asset and day. On a
contiguous store the row that a reader computes holds the bar of that asset on that day
(`Reader.lookup_rowIndex`), and no other row does; so it makes no difference which of the two is
read (`Reader.storedValue_eq`). **So a value fails exactly where its row does**, and is that of the
bar otherwise (`Reader.value_of_mem`).
-/

namespace DailyBars

namespace Store

variable {store : Store} {asset : AssetId} {day : Day} {bar : Bar} {field : Field}

/-- A bar that is found is stored under the keys that it was looked up by. -/
theorem mem_of_find? (h : store.rows.find? (fun other ↦ other.asset = asset && other.day = day) =
    some bar) : bar ∈ store.rows ∧ bar.asset = asset ∧ bar.day = day := by
  have hsame := List.find?_some h
  simp only [Bool.and_eq_true, decide_eq_true_eq] at hsame
  exact ⟨List.mem_of_find?_eq_some h, hsame⟩

/-- A stored bar is the one that is found. -/
theorem value?_eq_some (hkeys : (store.rows.map Bar.key).Nodup) (hbar : bar ∈ store.rows) :
    store.value? bar.asset bar.day field = some (bar.value field) := by
  rw [value?]
  cases hfind : store.rows.find? fun other ↦ other.asset = bar.asset && other.day = bar.day with
  | none =>
    have hnot := List.find?_eq_none.1 hfind bar hbar
    simp at hnot
  | some other =>
    obtain ⟨hmem, hasset, hday⟩ := mem_of_find? hfind
    have heq : other = bar := List.inj_on_of_nodup_map hkeys hmem hbar (Prod.ext hasset hday)
    rw [heq, Option.map_some]

theorem value?_eq_none (h : ∀ bar ∈ store.rows, bar.asset = asset → bar.day ≠ day) :
    store.value? asset day field = none := by
  rw [value?, Option.map_eq_none_iff, List.find?_eq_none]
  intro bar hbar hsame
  simp only [Bool.and_eq_true, decide_eq_true_eq] at hsame
  exact h bar hbar hsame.1 hsame.2

theorem value?_eq_some_iff (hkeys : (store.rows.map Bar.key).Nodup) {value : Binary64} :
    store.value? asset day field = some value ↔
      ∃ bar ∈ store.rows, bar.asset = asset ∧ bar.day = day ∧ bar.value field = value := by
  constructor
  · intro h
    obtain ⟨bar, hfind, hvalue⟩ := Option.map_eq_some_iff.1 h
    obtain ⟨hmem, hasset, hday⟩ := mem_of_find? hfind
    exact ⟨bar, hmem, hasset, hday, hvalue⟩
  · rintro ⟨bar, hbar, rfl, rfl, rfl⟩
    exact value?_eq_some hkeys hbar

end Store

namespace Reader

variable {calendar : Calendar} {store : Store} {index : OffsetIndex} {asset : AssetId} {day : Day}
  {offsets : AssetOffsets} {cache : Cache} {bar : Bar} {row : Nat} {field : Field}

/-- **A value is the same from a cached column and from the store**, at the row of its bar. -/
theorem storedValue_eq (hcache : cache.IsCoherent calendar store)
    (hkeys : (store.rows.map Bar.key).Nodup) (hrow : store.rows[row]? = some bar) :
    storedValue store cache bar.asset bar.day row field = .ok (bar.value field) := by
  rw [storedValue]
  cases hcolumn : cache.columns field with
  | none =>
    rw [Option.bind_none, Store.value?_eq_some hkeys (List.mem_of_getElem? hrow)]
  | some column =>
    rw [hcache.columns field column hcolumn, Option.bind_some, List.getElem?_toArray, Store.column,
      List.getElem?_map, hrow, Option.map_some]

/-- The bar that is some rows after the first of its asset is found there, and its day as many
sessions after the first. -/
theorem exists_bar_of_lt (h : store.IsContiguous calendar)
    (hcalendar : calendar.IsLawfulOn Day.IsUnsigned)
    (hlocates : OffsetIndex.Locates store (store.sessions calendar) asset offsets) {k : Nat}
    (hk : k ≤ offsets.lastRow - offsets.firstRow) :
    ∃ bar, store.rows[offsets.firstRow + k]? = some bar ∧ bar.asset = asset ∧
      (store.sessions calendar).toList[offsets.calendarOffset + k]? = some bar.day := by
  have hlt : k < (store.assetRows asset).length := by
    have := hlocates.firstRow_add
    omega
  have hbar := List.getElem?_eq_getElem hlt
  refine ⟨(store.assetRows asset)[k], ?_, ?_, h.getElem?_sessions hcalendar hlocates hbar⟩
  · rw [hlocates.firstRow, Store.getElem?_rows hlt, hbar]
  · exact (Store.mem_assetRows.1 (List.getElem_mem hlt)).2

/-! ### Values from any cache -/

variable (reader : Reader)

/-- **A value is answered by the row of its bar**, as it would be from an empty cache. -/
theorem computes_value (h : reader.store.IsContiguous reader.calendar)
    (hcalendar : reader.calendar.IsLawfulOn Day.IsUnsigned) (asset : AssetId) (day : Day)
    (field : Field) :
    Cached.Computes reader.calendar reader.store (reader.value asset day field)
      ((reader.store.index reader.calendar >>= fun index ↦
          rowIndex (reader.store.sessions reader.calendar) index asset day) >>= fun row ↦
        storedValue reader.store .empty asset day row field >>= fun stored ↦
          .ok (field.present stored)) := by
  refine (reader.computes_rowOf asset day).bind fun row hrow ↦
    Cached.answers_get fun cache hcache ↦ ?_
  obtain ⟨index, hindex, hrow⟩ := Result.bind_eq_ok_iff.1 hrow
  have hlookup := lookup_rowIndex h hcalendar hindex asset day
  rw [hrow] at hlookup
  have hkeys := h.nodup_keys hcalendar
  cases hlookup with
  | found hday hbar hasset hbarDay =>
    subst hasset hbarDay
    rw [storedValue_eq hcache hkeys hbar,
      storedValue_eq (Cache.isCoherent_empty reader.calendar reader.store) hkeys hbar]
    exact (Cached.computes_lift _).then (Cached.answers_pure rfl)

/-- What comes of the lookup of a row. -/
theorem lookup_rowOf (h : reader.store.IsContiguous reader.calendar)
    (hcalendar : reader.calendar.IsLawfulOn Day.IsUnsigned) {cache : Cache}
    (hcache : cache.IsCoherent reader.calendar reader.store) (asset : AssetId) (day : Day) :
    Lookup reader.calendar reader.store asset day ((reader.rowOf asset day).run cache).1 := by
  obtain ⟨index, hindex⟩ := h.exists_index hcalendar
  rw [(reader.computes_rowOf asset day cache hcache).1, hindex]
  exact lookup_rowIndex h hcalendar hindex asset day

/-- A value is read from the row that is found for it. -/
theorem value_eq_bind (h : reader.store.IsContiguous reader.calendar)
    (hcalendar : reader.calendar.IsLawfulOn Day.IsUnsigned) {cache : Cache}
    (hcache : cache.IsCoherent reader.calendar reader.store) (asset : AssetId) (day : Day)
    (field : Field) :
    ((reader.value asset day field).run cache).1 =
      ((reader.rowOf asset day).run cache).1 >>= fun row ↦
        storedValue reader.store .empty asset day row field >>= fun stored ↦
          .ok (field.present stored) := by
  rw [(reader.computes_value h hcalendar asset day field cache hcache).1,
    (reader.computes_rowOf asset day cache hcache).1]

/-- **A value fails exactly where its row does**, and in the same way. -/
theorem value_eq_error_iff (h : reader.store.IsContiguous reader.calendar)
    (hcalendar : reader.calendar.IsLawfulOn Day.IsUnsigned) {cache : Cache}
    (hcache : cache.IsCoherent reader.calendar reader.store) (asset : AssetId) (day : Day)
    (field : Field) (error : StoreError) :
    ((reader.value asset day field).run cache).1 = .error error ↔
      ((reader.rowOf asset day).run cache).1 = .error error := by
  have hlookup := reader.lookup_rowOf h hcalendar hcache asset day
  rw [reader.value_eq_bind h hcalendar hcache]
  generalize ((reader.rowOf asset day).run cache).1 = row at hlookup ⊢
  cases hlookup with
  | noSession | noRows | before | after => simp only [bind, Except.bind, Except.error.injEq]
  | found hday hrow hasset hbarDay =>
    subst hasset hbarDay
    change (storedValue _ _ _ _ _ _ >>= _) = _ ↔ _
    rw [storedValue_eq (Cache.isCoherent_empty reader.calendar reader.store)
      (h.nodup_keys hcalendar) hrow]
    exact iff_of_false nofun nofun

/-- **A stored bar is found** by its asset and day, from any coherent cache. -/
theorem value_of_mem (h : reader.store.IsContiguous reader.calendar)
    (hcalendar : reader.calendar.IsLawfulOn Day.IsUnsigned) {cache : Cache}
    (hcache : cache.IsCoherent reader.calendar reader.store) {bar : Bar}
    (hbar : bar ∈ reader.store.rows) (field : Field) :
    ((reader.value bar.asset bar.day field).run cache).1 =
      .ok (field.present (bar.value field)) := by
  have hkeys := h.nodup_keys hcalendar
  have hmem : bar ∈ reader.store.assetRows bar.asset := Store.mem_assetRows.2 ⟨hbar, rfl⟩
  have hlookup := reader.lookup_rowOf h hcalendar hcache bar.asset bar.day
  rw [reader.value_eq_bind h hcalendar hcache]
  generalize ((reader.rowOf bar.asset bar.day).run cache).1 = row at hlookup ⊢
  cases hlookup with
  | noSession hday => exact absurd (h.hasSession hcalendar hbar) hday
  | noRows hday hnone => exact absurd hmem (by rw [hnone]; exact List.not_mem_nil)
  | before hday hne hall => exact absurd (hall bar hmem) (lt_irrefl _)
  | after hday hne hall => exact absurd (hall bar hmem) (lt_irrefl _)
  | @found other hday hrow hasset hotherDay =>
    obtain rfl : other = bar :=
      List.inj_on_of_nodup_map hkeys (List.mem_of_getElem? hrow) hbar (Prod.ext hasset hotherDay)
    change (storedValue _ _ _ _ _ _ >>= _) = _
    rw [storedValue_eq (Cache.isCoherent_empty reader.calendar reader.store) hkeys hrow]
    rfl

end Reader

end DailyBars
