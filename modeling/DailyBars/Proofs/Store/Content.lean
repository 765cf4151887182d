import DailyBars.Proofs.Store.Rows
import DailyBars.Store.Digest
import Mathlib

/-!
# The content of a store

The hash of a store runs over its rows one after the other, without a mark between them, and the
day of a row is a text whose length depends on the year. The rows can be told from these bytes
nevertheless, since every part of a row shows where it ends (`Bar.selfDelimiting_bytes`). The other
way round, the order of the rows is part of a store, so that rows which no two have the same asset
and day stand in one order only (`Store.HoldsSame.rows_eq`): **the bytes are a code for the set of
the rows** (`Store.bytes_identify_rows`), in whatever order and in however many additions they came
in.

Of the hash itself nothing is assumed. Two stores with different rows have one hash exactly if their
bytes are a collision of the hash function.
-/

namespace DailyBars

/-! ### Words of fixed length -/

namespace Bytes

theorem selfDelimiting_littleEndian {α : Type} {count : Nat} {f : α → Nat}
    (hf : Function.Injective f) (hlt : ∀ a, f a < Nat.pow 256 count) :
    SelfDelimiting fun a ↦ littleEndian count (f a) := by
  refine .of_length count (fun a ↦ length_littleEndian count (f a)) fun a b h ↦ hf ?_
  rw [← ofLittleEndian_littleEndian (hlt a), ← ofLittleEndian_littleEndian (hlt b)]
  exact congrArg ofLittleEndian h

theorem selfDelimiting_ofInt64 : SelfDelimiting ofInt64 := by
  refine selfDelimiting_littleEndian (fun a b h ↦ ?_) fun a ↦ a.toUInt64.toNat_lt
  cases a
  cases b
  exact congrArg Int64.ofUInt64 (UInt64.toNat_inj.1 h)

theorem selfDelimiting_ofDouble : SelfDelimiting ofDouble := by
  refine selfDelimiting_littleEndian (fun a b h ↦ ?_) fun x ↦ x.bits.toNat_lt
  cases a
  cases b
  exact congrArg Binary64.mk (UInt64.toNat_inj.1 h)

theorem digit_injective : ∀ m < 16, ∀ n < 16, Nat.digitChar m = Nat.digitChar n → m = n := by
  decide

theorem selfDelimiting_hex : SelfDelimiting fun byte : UInt8 ↦
    [Nat.digitChar (byte.toNat / 16), Nat.digitChar (byte.toNat % 16)] := by
  refine .of_length 2 (fun _ ↦ rfl) fun a b h ↦ ?_
  have ha := a.toNat_lt
  have hb := b.toNat_lt
  obtain ⟨hhigh, hlow⟩ := List.cons.inj h
  have hhigh' := digit_injective _ (by omega) _ (by omega) hhigh
  have hlow' := digit_injective _ (by omega) _ (by omega) (List.cons.inj hlow).1
  exact UInt8.toNat_inj.1 (by omega)

/-- Different bytes have different texts. -/
theorem Blake3.hex_injective : Function.Injective Blake3.hex := by
  intro xs ys h
  exact selfDelimiting_hex.flatMap_injective (fun _ ↦ List.cons_ne_nil _ _) (String.ofList_inj.1 h)

/-- Different bytes with one hash. -/
def Blake3.Collide (xs ys : List UInt8) : Prop :=
  xs ≠ ys ∧ hash xs = hash ys

end Bytes

/-! ### Rows -/

theorem Day.selfDelimiting_bytes : SelfDelimiting fun day : Day ↦ Bytes.ofAscii day.text := by
  refine Day.selfDelimiting_text.map (fun byte ↦ Char.ofNat byte.toNat) fun day c hc ↦ ?_
  have hlt : c.toNat < 256 := by
    rw [text, String.toList_ofList] at hc
    rcases CivilDate.isDigit_of_mem_chars hc with hdigit | rfl | rfl
    · simp only [Char.isDigit, Bool.and_eq_true, decide_eq_true_eq] at hdigit
      have : c.toNat ≤ 0x39 := UInt32.le_iff_toNat_le.1 hdigit.2
      omega
    · decide
    · decide
  rw [UInt8.toNat_ofNat', Nat.mod_eq_of_lt hlt, Char.ofNat_toNat]

/-- **A row shows where each of its parts ends**, whatever follows. -/
theorem Bar.selfDelimiting_bytes : SelfDelimiting Bar.bytes := by
  intro a b xs ys h
  simp only [bytes, prices, List.flatMap_cons, List.flatMap_nil, List.append_nil,
    List.append_assoc] at h
  obtain ⟨hasset, h⟩ := Bytes.selfDelimiting_ofInt64 h
  obtain ⟨hday, h⟩ := Day.selfDelimiting_bytes h
  obtain ⟨hopen, h⟩ := Bytes.selfDelimiting_ofDouble h
  obtain ⟨hhigh, h⟩ := Bytes.selfDelimiting_ofDouble h
  obtain ⟨hlow, h⟩ := Bytes.selfDelimiting_ofDouble h
  obtain ⟨hclose, h⟩ := Bytes.selfDelimiting_ofDouble h
  obtain ⟨hvolume, hrest⟩ := Bytes.selfDelimiting_ofInt64 h
  cases a
  cases b
  simp only [Bar.mk.injEq]
  exact ⟨⟨AssetId.ext hasset, hday, hopen, hhigh, hlow, hclose, hvolume⟩, hrest⟩

theorem Bar.bytes_ne_nil (bar : Bar) : bar.bytes ≠ [] := by
  simp [bytes, Bytes.ofInt64, Bytes.littleEndian]

namespace Store

variable {first second store : Store}

/-- **The rows of a store can be told from its bytes.** -/
theorem rows_eq_of_bytes_eq (h : first.bytes = second.bytes) : first.rows = second.rows :=
  Bar.selfDelimiting_bytes.flatMap_injective Bar.bytes_ne_nil h

/-- The two stores hold the same rows, not counting how often. -/
def HoldsSame (first second : Store) : Prop :=
  ∀ bar, bar ∈ first.rows ↔ bar ∈ second.rows

/-- **Rows with different keys have one order.** -/
theorem HoldsSame.rows_eq (h : first.HoldsSame second) (hfirst : (first.rows.map Bar.key).Nodup)
    (hsecond : (second.rows.map Bar.key).Nodup) : first.rows = second.rows := by
  have hperm : first.rows.Perm second.rows :=
    (List.perm_ext_iff_of_nodup hfirst.of_map hsecond.of_map).2 h
  refine hperm.eq_of_pairwise (fun a b ha hb hab hba ↦ ?_) first.ordered second.ordered
  have hasset : a.asset = b.asset :=
    le_antisymm (Bar.asset_le_of_rowLe hab) (Bar.asset_le_of_rowLe hba)
  have hday : a.day = b.day :=
    Day.textLe_antisymm (Bar.textLe_of_rowLe hab hasset) (Bar.textLe_of_rowLe hba hasset.symm)
  exact List.inj_on_of_nodup_map hfirst ha ((h b).2 hb) (Prod.ext hasset hday)

/-! ### Additions -/

/-- The store after several additions; none if one of them is refused. -/
def addAll? (store : Store) (additions : List (List Bar)) : Option Store :=
  additions.foldlM append? store

/-- **All that is added is stored**, whatever the additions are. -/
theorem rows_perm_of_addAll? {additions : List (List Bar)}
    (h : first.addAll? additions = some store) :
    store.rows.Perm (first.rows ++ additions.flatten.map Bar.stored) := by
  induction additions generalizing first with
  | nil =>
    cases h
    rw [List.flatten_nil, List.map_nil, List.append_nil]
  | cons bars rest ih =>
    rw [addAll?, List.foldlM_cons] at h
    obtain ⟨next, hnext, h⟩ := Option.bind_eq_some_iff.1 h
    rw [List.flatten_cons, List.map_append, ← List.append_assoc]
    exact (ih h).trans ((rows_perm_of_append? hnext).append_right _)

theorem mem_rows_of_addAll? {additions : List (List Bar)}
    (h : empty.addAll? additions = some store) {bar : Bar} :
    bar ∈ store.rows ↔ bar ∈ additions.flatten.map Bar.stored := by
  rw [(rows_perm_of_addAll? h).mem_iff, rows_empty, List.nil_append]

/-- **The bytes of a store, and its hash up to collisions, identify the set of its rows**, however
these were added. -/
theorem bytes_identify_rows (hfirst : (first.rows.map Bar.key).Nodup)
    (hsecond : (second.rows.map Bar.key).Nodup) :
    (first.bytes = second.bytes ↔ first.HoldsSame second) ∧
      (first.contentHash = second.contentHash ↔
        first.HoldsSame second ∨ Bytes.Blake3.Collide first.bytes second.bytes) ∧
      ∀ additions others, empty.addAll? additions = some first →
        empty.addAll? others = some second →
        (first.bytes = second.bytes ↔
          ∀ bar, bar ∈ additions.flatten.map Bar.stored ↔ bar ∈ others.flatten.map Bar.stored) := by
  have hbytes : first.bytes = second.bytes ↔ first.HoldsSame second := by
    constructor
    · intro h bar
      rw [rows_eq_of_bytes_eq h]
    · intro h
      rw [bytes, bytes, h.rows_eq hfirst hsecond]
  have hhash : first.contentHash = second.contentHash ↔
      Bytes.Blake3.hash first.bytes = Bytes.Blake3.hash second.bytes := by
    rw [contentHash, contentHash, ContentHash.mk.injEq]
    exact Bytes.Blake3.hex_injective.eq_iff
  refine ⟨hbytes, ?_, fun additions others hadditions hothers ↦ ?_⟩
  · rw [hhash, ← hbytes, Bytes.Blake3.Collide]
    constructor
    · intro h
      by_cases heq : first.bytes = second.bytes
      · exact .inl heq
      · exact .inr ⟨heq, h⟩
    · rintro (heq | ⟨-, h⟩)
      · rw [heq]
      · exact h
  · rw [hbytes]
    exact forall_congr' fun bar ↦ iff_congr (mem_rows_of_addAll? hadditions)
      (mem_rows_of_addAll? hothers)

namespace Sample

/-- A bar of a year with five digits. -/
def late : Bar := ⟨⟨7⟩, ⟨2932900, by decide⟩, .zero, .zero, .zero, .zero, 10⟩

/-- A bar of an earlier day, whose text comes later. -/
def early : Bar := ⟨⟨7⟩, ⟨2932890, by decide⟩, .zero, .zero, .zero, .zero, 20⟩

/-- A bar of another asset. -/
def other : Bar := ⟨⟨-1⟩, ⟨-719529, by decide⟩, .negZero, .zero, .zero, .zero, -1⟩

end Sample

/-- Three bars in three additions and in one, in different orders. -/
theorem bytes_identify_rows_of_bars :
    ∃ first second third,
      empty.addAll? [[Sample.late], [Sample.other], [Sample.early]] = some first ∧
      empty.addAll? [[Sample.early, Sample.late, Sample.other]] = some second ∧
      empty.addAll? [[Sample.early, Sample.late]] = some third ∧
      first.bytes = second.bytes ∧ first.contentHash = second.contentHash ∧
      first.bytes ≠ third.bytes := by
  obtain ⟨first, hfirst⟩ : ∃ first,
      empty.addAll? [[Sample.late], [Sample.other], [Sample.early]] = some first := ⟨_, rfl⟩
  obtain ⟨second, hsecond⟩ : ∃ second,
      empty.addAll? [[Sample.early, Sample.late, Sample.other]] = some second := ⟨_, rfl⟩
  obtain ⟨third, hthird⟩ : ∃ third,
      empty.addAll? [[Sample.early, Sample.late]] = some third := ⟨_, rfl⟩
  have hnodup : ∀ {store : Store} {additions : List (List Bar)},
      empty.addAll? additions = some store →
      ((additions.flatten.map Bar.stored).map Bar.key).Nodup → (store.rows.map Bar.key).Nodup :=
    fun h hkeys ↦ ((rows_perm_of_addAll? h).map Bar.key).nodup_iff.2 hkeys
  have hkeys := hnodup hfirst (by decide)
  obtain ⟨hbytes, hhash, hadded⟩ := bytes_identify_rows hkeys (hnodup hsecond (by decide))
  have hsame : first.bytes = second.bytes := by
    refine (hadded _ _ hfirst hsecond).2 fun bar ↦ List.Perm.mem_iff (List.Perm.map _ ?_)
    decide
  refine ⟨first, second, third, hfirst, hsecond, hthird, hsame,
    hhash.2 (.inl (hbytes.1 hsame)), fun hthree ↦ ?_⟩
  obtain ⟨-, -, hadded⟩ := bytes_identify_rows hkeys (hnodup hthird (by decide))
  exact absurd ((hadded _ _ hfirst hthird).1 hthree Sample.other.stored) (by decide)

end Store

end DailyBars
