import DailyBars.Proofs.Store.Assets
import DailyBars.Proofs.Writer.Edges
import Mathlib

/-!
# Chunks of a run

A run of sessions is cut into chunks, and these are written one after the other in some order. After
the first of them **the written chunks are an interval as long as each new one touches it**
(`Writer.HasPiece`), and the stored rows are the bars of the interval, in the order of days and not
in that of the writes. A chunk that touches the interval is accepted and the interval grows; any
other that is not in it is refused, with a gap of the chunks between (`Writer.HasPiece.write`).

The interval is kept as two numbers, and what is between two positions of a cut is
`Writer.piece`: pieces are put together by their positions.
-/

namespace DailyBars.Writer

section Pieces

variable {α : Type} {chunks : List (List α)} {a b c : Nat}

/-- The members of the chunks from one position up to another. -/
def piece (chunks : List (List α)) (lo hi : Nat) : List α :=
  (chunks.extract lo hi).flatten

theorem piece_append (chunks : List (List α)) (hab : a ≤ b) (hbc : b ≤ c) :
    piece chunks a b ++ piece chunks b c = piece chunks a c := by
  have hcount : c - a = (b - a) + (c - b) := by omega
  have hdrop : (chunks.drop a).drop (b - a) = chunks.drop b := by
    rw [List.drop_drop, Nat.add_sub_cancel' hab]
  rw [piece, piece, piece, ← List.flatten_append]
  simp only [List.extract_eq_take_drop]
  rw [hcount, List.take_add, hdrop]

theorem piece_self (chunks : List (List α)) (a : Nat) : piece chunks a a = [] := by
  simp [piece, List.extract_eq_take_drop]

/-- One chunk is a piece. -/
theorem piece_succ (k : Fin chunks.length) : piece chunks k (k + 1) = chunks[k] := by
  rw [piece, List.extract_eq_take_drop, List.drop_eq_getElem_cons k.isLt, Nat.add_sub_cancel_left]
  exact List.flatten_singleton

/-- All chunks together are a piece. -/
theorem piece_length (chunks : List (List α)) : piece chunks 0 chunks.length = chunks.flatten := by
  simp [piece, List.extract_eq_take_drop]

/-- A piece is a part of the whole. -/
theorem flatten_eq_piece (hab : a ≤ b) (hb : b ≤ chunks.length) :
    chunks.flatten = piece chunks 0 a ++ piece chunks a b ++ piece chunks b chunks.length := by
  rw [piece_append chunks (Nat.zero_le a) hab, piece_append chunks (Nat.zero_le b) hb, piece_length]

theorem piece_eq_nil_iff (hnonempty : ∀ chunk ∈ chunks, chunk ≠ []) (hab : a ≤ b)
    (hb : b ≤ chunks.length) : piece chunks a b = [] ↔ a = b := by
  constructor
  · intro hnil
    by_contra hne
    have hlt : a < b := Nat.lt_of_le_of_ne hab hne
    let k : Fin chunks.length := ⟨a, Nat.lt_of_lt_of_le hlt hb⟩
    have hfirst : piece chunks a (a + 1) = chunks[k] := piece_succ k
    rw [← piece_append chunks (Nat.le_succ a) hlt, hfirst] at hnil
    exact hnonempty _ (List.getElem_mem k.isLt) (List.append_eq_nil_iff.1 hnil).1
  · rintro rfl
    exact piece_self chunks a

end Pieces

/-! ### Orders -/

section Orders

variable {n : Nat} {order : List (Fin n)} {k : Fin n} {lo hi : Nat}

/-- Two positions are neighbours. -/
def Adjacent (j k : Fin n) : Prop :=
  (j : Nat) + 1 = k ∨ (k : Nat) + 1 = j

/-- Each position after the first has a neighbour among those before it. -/
def IsGrowing (order : List (Fin n)) : Prop :=
  ∀ earlier k later, order = earlier ++ k :: later → earlier = [] ∨ ∃ j ∈ earlier, Adjacent j k

theorem isGrowing_nil : IsGrowing ([] : List (Fin n)) := by
  intro earlier k later horder
  exact absurd horder.symm (List.append_ne_nil_of_right_ne_nil _ (List.cons_ne_nil k later))

/-- An order grows by one position at a time. -/
theorem isGrowing_concat_iff :
    IsGrowing (order ++ [k]) ↔ IsGrowing order ∧ (order = [] ∨ ∃ j ∈ order, Adjacent j k) := by
  constructor
  · intro h
    refine ⟨fun earlier j later horder ↦ h earlier j (later ++ [k]) ?_, h order k [] rfl⟩
    rw [horder, List.append_assoc, List.cons_append]
  · rintro ⟨h, hlast⟩ earlier j later horder
    rcases later.eq_nil_or_concat with rfl | ⟨front, last, rfl⟩
    · obtain ⟨rfl, hk⟩ := List.append_inj' horder rfl
      obtain rfl := (List.cons.inj hk).1
      exact hlast
    · rw [List.concat_eq_append, ← List.cons_append, ← List.append_assoc] at horder
      exact h earlier j front (List.append_inj' horder rfl).1

/-- The positions of an order are those from one number up to another. -/
def IsInterval (order : List (Fin n)) (lo hi : Nat) : Prop :=
  ∀ k : Fin n, k ∈ order ↔ lo ≤ k ∧ (k : Nat) < hi

theorem IsInterval.eq_of_nil (h : IsInterval ([] : List (Fin n)) lo hi) (hle : lo ≤ hi)
    (hhi : hi ≤ n) : lo = hi := by
  by_contra hne
  have hlt : lo < hi := Nat.lt_of_le_of_ne hle hne
  exact List.not_mem_nil ((h ⟨lo, Nat.lt_of_lt_of_le hlt hhi⟩).2 ⟨Nat.le_refl lo, hlt⟩)

theorem IsInterval.lt_of_ne_nil (h : IsInterval order lo hi) (horder : order ≠ []) : lo < hi := by
  obtain ⟨hlow, hhigh⟩ := (h _).1 (List.head_mem horder)
  exact Nat.lt_of_le_of_lt hlow hhigh

/-- **A position outside an interval touches it where it is next to an end.** -/
theorem IsInterval.exists_adjacent_iff (h : IsInterval order lo hi) (hlt : lo < hi) (hhi : hi ≤ n)
    (hk : k ∉ order) : (∃ j ∈ order, Adjacent j k) ↔ (k : Nat) + 1 = lo ∨ (k : Nat) = hi := by
  rw [h k] at hk
  constructor
  · rintro ⟨j, hj, hadjacent⟩
    rw [h j] at hj
    unfold Adjacent at hadjacent
    omega
  · rintro (hbefore | hafter)
    · exact ⟨⟨lo, by omega⟩, (h _).2 ⟨Nat.le_refl lo, hlt⟩, Or.inr hbefore⟩
    · have hlast : hi - 1 + 1 = k := by omega
      refine ⟨⟨hi - 1, by omega⟩, (h _).2 ⟨?_, ?_⟩, Or.inl hlast⟩
      · show lo ≤ hi - 1
        omega
      · show hi - 1 < hi
        omega

theorem IsInterval.concat (h : IsInterval order lo hi) (hlt : lo < hi)
    (hends : (k : Nat) + 1 = lo ∨ (k : Nat) = hi) :
    IsInterval (order ++ [k]) (min lo k) (max hi (k + 1)) := by
  intro j
  rw [List.mem_append, List.mem_singleton, h j, Fin.ext_iff]
  omega

/-- An order of all positions is the interval of all. -/
theorem IsInterval.eq_of_forall_mem (h : IsInterval order lo hi) (hle : lo ≤ hi) (hhi : hi ≤ n)
    (hall : ∀ k, k ∈ order) : lo = hi ∧ n = 0 ∨ lo = 0 ∧ hi = n := by
  rcases Nat.eq_zero_or_pos n with hzero | hpos
  · exact Or.inl ⟨by omega, hzero⟩
  · have hfirst := (h ⟨0, hpos⟩).1 (hall _)
    have hlast := (h ⟨n - 1, by omega⟩).1 (hall _)
    dsimp only at hfirst hlast
    omega

end Orders

/-! ### Writes -/

/-- The writes of several lists of bars of an asset, one after the other. -/
def writeEach (calendar : Calendar) (behavior : Behavior) (asset : AssetId) :
    List (List Bar) → Archive → List (Except StoreError AssetOutcome) × Archive
  | [], archive => ([], archive)
  | bars :: rest, archive =>
    let (result, next) := writeBars calendar behavior asset bars archive
    let (results, last) := writeEach calendar behavior asset rest next
    (result :: results, last)

theorem writeEach_concat (calendar : Calendar) (behavior : Behavior) (asset : AssetId)
    (earlier : List (List Bar)) (bars : List Bar) (archive : Archive) :
    let before := writeEach calendar behavior asset earlier archive
    let written := writeBars calendar behavior asset bars before.2
    writeEach calendar behavior asset (earlier ++ [bars]) archive =
      (before.1 ++ [written.1], written.2) := by
  induction earlier generalizing archive with
  | nil => rfl
  | cons first rest ih =>
    let written := writeBars calendar behavior asset first archive
    let later := writeEach calendar behavior asset (rest ++ [bars]) written.2
    show (written.1 :: later.1, later.2) = _
    rw [show later = _ from ih written.2]
    rfl

variable {calendar : Calendar} {asset : AssetId} {chunks : List (List Bar)} {archive : Archive}
  {base : Store} {lo hi : Nat}

/-- A run of sessions of an asset that is cut into chunks. -/
structure IsCut (calendar : Calendar) (asset : AssetId) (chunks : List (List Bar)) : Prop where
  nonempty : ∀ chunk ∈ chunks, chunk ≠ []
  asset_eq : ∀ bar ∈ chunks.flatten, bar.asset = asset
  numbers : ∀ bar ∈ chunks.flatten, bar.hasNaN = false
  unsigned : ∀ bar ∈ chunks.flatten, bar.day.IsUnsigned
  isRun : calendar.IsRun (chunks.flatten.map Bar.day)

theorem mem_flatten_of_mem_piece (hle : lo ≤ hi) (hhi : hi ≤ chunks.length) {bar : Bar}
    (hbar : bar ∈ piece chunks lo hi) : bar ∈ chunks.flatten := by
  rw [flatten_eq_piece hle hhi]
  exact List.mem_append_left _ (List.mem_append_right _ hbar)

theorem IsCut.isRun_piece (hcut : IsCut calendar asset chunks)
    (hcalendar : calendar.IsLawfulOn Day.IsUnsigned) (hle : lo ≤ hi) (hhi : hi ≤ chunks.length) :
    calendar.IsRun ((piece chunks lo hi).map Bar.day) := by
  have hrun := hcut.isRun
  have hends := List.forall_mem_map.2 hcut.unsigned
  rw [flatten_eq_piece hle hhi, List.map_append, List.map_append] at hrun hends
  exact hrun.part hcalendar hends

/-- An archive that may be written has the chunks of an interval, and besides them what a base
has. -/
structure HasPiece (archive : Archive) (base : Store) (asset : AssetId) (chunks : List (List Bar))
    (lo hi : Nat) : Prop where
  le : lo ≤ hi
  hi_le : hi ≤ chunks.length
  isReadOnly_eq : archive.isReadOnly = false
  isUpdate : archive.store.IsUpdate base asset ((piece chunks lo hi).map Bar.stored)

theorem hasPiece_of_assetRows (hwritable : archive.isReadOnly = false)
    (hnew : archive.store.assetRows asset = []) :
    HasPiece archive archive.store asset chunks 0 0 where
  le := Nat.le_refl 0
  hi_le := Nat.zero_le _
  isReadOnly_eq := hwritable
  isUpdate := by
    rw [piece_self, List.map_nil, ← hnew]
    exact archive.store.isUpdate_self asset

/-- **Bars that are accepted make one piece of another.** -/
theorem HasPiece.exists_write (h : HasPiece archive base asset chunks lo hi)
    (hcut : IsCut calendar asset chunks) (hcalendar : calendar.IsLawfulOn Day.IsUnsigned)
    {bars : List Bar} {lo' hi' : Nat} (hle : lo' ≤ hi') (hhi : hi' ≤ chunks.length)
    (hplan : planBars calendar .raise (archive.store.assetBounds? asset) asset bars =
      .ok ⟨bars, []⟩)
    (hperm : (piece chunks lo hi ++ bars).Perm (piece chunks lo' hi')) :
    ∃ next, writeBars calendar .raise asset bars archive =
        (.ok (.written asset bars.length []), next) ∧
      HasPiece next base asset chunks lo' hi' := by
  have hmem : ∀ bar ∈ bars, bar ∈ chunks.flatten := fun bar hbar ↦
    mem_flatten_of_mem_piece hle hhi (hperm.mem_iff.1 (List.mem_append_right _ hbar))
  have hunsigned : ∀ bar ∈ piece chunks lo' hi', bar.day.IsUnsigned := fun bar hbar ↦
    hcut.unsigned bar (mem_flatten_of_mem_piece hle hhi hbar)
  have hascending := (hcut.isRun_piece hcalendar hle hhi).ascending hcalendar
    (List.forall_mem_map.2 hunsigned)
  obtain ⟨next, hwritten, hnext, -⟩ := exists_writeBars_eq h.isReadOnly_eq hplan fun bar hbar ↦
    hcut.numbers bar (hmem bar hbar)
  have hextends := extends_writeBars calendar .raise asset bars archive
  rw [hwritten] at hextends
  refine ⟨next, hwritten, hle, hhi, hextends.isReadOnly_eq.trans h.isReadOnly_eq, ?_⟩
  refine h.isUpdate.append hnext (fun bar hbar ↦ hcut.asset_eq bar (hmem bar hbar))
    Day.orderedTexts_isUnsigned ?_ (List.forall_mem_map.2 hunsigned) ?_
  · rw [← List.map_append]
    exact hperm.map Bar.stored
  · rwa [Bar.map_day_stored]

/-- Bars that are a piece are accepted where nothing is stored. -/
theorem HasPiece.write_initial {a : Nat} (h : HasPiece archive base asset chunks a a)
    (hcut : IsCut calendar asset chunks) (hcalendar : calendar.IsLawfulOn Day.IsUnsigned)
    (hle : lo ≤ hi) (hhi : hi ≤ chunks.length) :
    ∃ next, writeBars calendar .raise asset (piece chunks lo hi) archive =
        (.ok (.written asset (piece chunks lo hi).length []), next) ∧
      HasPiece next base asset chunks lo hi := by
  have hmem := fun bar (hbar : bar ∈ piece chunks lo hi) ↦ mem_flatten_of_mem_piece hle hhi hbar
  have hnone : archive.store.assetBounds? asset = none := by
    rw [Store.assetBounds?_eq_none_iff, h.isUpdate.rows_eq, piece_self, List.map_nil]
  refine h.exists_write hcut hcalendar hle hhi ?_ ?_
  · rw [hnone]
    exact planBars_initial hcalendar (fun bar hbar ↦ hcut.asset_eq bar (hmem bar hbar))
      (List.forall_mem_map.2 fun bar hbar ↦ hcut.unsigned bar (hmem bar hbar))
      (hcut.isRun_piece hcalendar hle hhi)
  · rw [piece_self, List.nil_append]

/-- A chunk outside an interval lies at one edge of it, and all that is from the one to the other is
a piece. -/
theorem exists_arrange (hnonempty : ∀ chunk ∈ chunks, chunk ≠ []) (hle : lo ≤ hi)
    (hhi : hi ≤ chunks.length) {k : Fin chunks.length} (hk : ¬(lo ≤ k ∧ (k : Nat) < hi)) :
    ∃ (edge : Edge) (between : List Bar),
      edge.arrange chunks[k] between (piece chunks lo hi) =
        piece chunks (min lo k) (max hi (k + 1)) ∧
      (between = [] ↔ (k : Nat) + 1 = lo ∨ (k : Nat) = hi) := by
  have hlength := k.isLt
  rcases Nat.lt_or_ge k lo with hbefore | hafter
  · have hmin : min lo k = k := by omega
    have hmax : max hi (k + 1) = hi := by omega
    refine ⟨.before, piece chunks (k + 1) lo, ?_, ?_⟩
    · rw [hmin, hmax, Edge.arrange, ← piece_succ k, piece_append chunks (Nat.le_succ _) hbefore,
        piece_append chunks (Nat.le_of_lt hbefore) hle]
    · rw [piece_eq_nil_iff hnonempty hbefore (hle.trans hhi)]
      omega
  · have hhigh : hi ≤ k := by omega
    have hmin : min lo k = lo := by omega
    have hmax : max hi (k + 1) = k + 1 := by omega
    refine ⟨.after, piece chunks hi k, ?_, ?_⟩
    · rw [hmin, hmax, Edge.arrange, ← piece_succ k, piece_append chunks hle hhigh,
        piece_append chunks hafter (Nat.le_succ _)]
    · rw [piece_eq_nil_iff hnonempty hhigh (Nat.le_of_lt hlength)]
      omega

/-- **The plan for one more chunk**: it is accepted if nothing is between it and the interval. -/
theorem HasPiece.planBars_eq (h : HasPiece archive base asset chunks lo hi)
    (hcut : IsCut calendar asset chunks) (hcalendar : calendar.IsLawfulOn Day.IsUnsigned)
    (hlt : lo < hi) {k : Fin chunks.length} {edge : Edge} {between : List Bar}
    (harrange : edge.arrange chunks[k] between (piece chunks lo hi) =
      piece chunks (min lo k) (max hi (k + 1))) :
    planBars calendar .raise (archive.store.assetBounds? asset) asset chunks[k] =
      if between.map Bar.day = [] then .ok ⟨chunks[k], []⟩
      else .error (.edgeViolation asset (.gap edge ((between.map Bar.day).length + 2) 2)) := by
  have hlength := k.isLt
  have hle : min lo k ≤ max hi (k + 1) := by omega
  have hhi : max hi (k + 1) ≤ chunks.length := Nat.max_le.2 ⟨h.hi_le, hlength⟩
  have hrun := hcut.isRun_piece hcalendar hle hhi
  have hends := List.forall_mem_map.2 fun bar hbar ↦
    hcut.unsigned bar (mem_flatten_of_mem_piece hle hhi hbar)
  rw [← harrange, Edge.map_arrange] at hrun hends
  -- The interval has days, and they give the stored bounds.
  have hinner : (piece chunks lo hi).map Bar.day ≠ [] := by
    rw [Ne, List.map_eq_nil_iff, piece_eq_nil_iff hcut.nonempty h.le h.hi_le]
    exact Nat.ne_of_lt hlt
  obtain ⟨first, last, hfirst, hlast⟩ := Calendar.exists_ends hinner
  have hbounds : archive.store.assetBounds? asset = some (first, last) := by
    rw [Store.assetBounds?_eq_some_iff, h.isUpdate.rows_eq, Bar.map_day_stored]
    exact ⟨hfirst, hlast⟩
  have hchunk : chunks[k] ∈ chunks := List.getElem_mem hlength
  rw [hbounds]
  exact planBars_at_edge hcalendar (hcut.nonempty _ hchunk) (fun bar hbar ↦
    hcut.asset_eq bar (List.mem_flatten_of_mem hchunk hbar)) hends hrun hfirst hlast

/-- **One more chunk**: it is accepted next to an end of the interval, and else there is a gap. -/
theorem HasPiece.write (h : HasPiece archive base asset chunks lo hi)
    (hcut : IsCut calendar asset chunks) (hcalendar : calendar.IsLawfulOn Day.IsUnsigned)
    (hlt : lo < hi) {k : Fin chunks.length} (hk : ¬(lo ≤ k ∧ (k : Nat) < hi)) :
    if (k : Nat) + 1 = lo ∨ (k : Nat) = hi then
      ∃ next, writeBars calendar .raise asset chunks[k] archive =
          (.ok (.written asset chunks[k].length []), next) ∧
        HasPiece next base asset chunks (min lo k) (max hi (k + 1))
    else
      ∃ (edge : Edge) (distance : Nat), 2 < distance ∧
        writeBars calendar .raise asset chunks[k] archive =
          (.error (.edgeViolation asset (.gap edge distance 2)), archive) := by
  have hlength := k.isLt
  have hle : min lo k ≤ max hi (k + 1) := by omega
  have hhi : max hi (k + 1) ≤ chunks.length := Nat.max_le.2 ⟨h.hi_le, hlength⟩
  obtain ⟨edge, between, harrange, hbetween⟩ := exists_arrange hcut.nonempty h.le h.hi_le hk
  have hplan := h.planBars_eq hcut hcalendar hlt harrange
  rw [← List.map_eq_nil_iff] at hbetween
  split
  · rename_i htouches
    rw [if_pos (hbetween.2 htouches)] at hplan
    refine h.exists_write hcut hcalendar hle hhi hplan ?_
    rw [← harrange, List.map_eq_nil_iff.1 (hbetween.2 htouches)]
    exact edge.arrange_nil_perm _ _
  · rename_i hapart
    rw [if_neg (mt hbetween.1 hapart)] at hplan
    have hpos := List.length_pos_iff.2 (mt hbetween.1 hapart)
    exact ⟨edge, (between.map Bar.day).length + 2, by omega, writeBars_of_error hplan⟩

/-- **One more chunk of a growing order**: it is accepted, and an interval is written again. -/
theorem HasPiece.write_next (h : HasPiece archive base asset chunks lo hi)
    (hcut : IsCut calendar asset chunks) (hcalendar : calendar.IsLawfulOn Day.IsUnsigned)
    {order : List (Fin chunks.length)} (hinterval : IsInterval order lo hi)
    {k : Fin chunks.length} (hk : k ∉ order) (htouches : order = [] ∨ ∃ j ∈ order, Adjacent j k) :
    ∃ lo' hi' next, IsInterval (order ++ [k]) lo' hi' ∧
      writeBars calendar .raise asset (chunks.get k) archive =
        (.ok (.written asset (chunks.get k).length []), next) ∧
      HasPiece next base asset chunks lo' hi' := by
  by_cases hempty : order = []
  · subst hempty
    obtain rfl := hinterval.eq_of_nil h.le h.hi_le
    obtain ⟨next, hwritten, hpiece⟩ := h.write_initial hcut hcalendar (Nat.le_succ k) k.isLt
    rw [piece_succ] at hwritten
    exact ⟨k, k + 1, next, fun j ↦ by simp [Fin.ext_iff]; omega, hwritten, hpiece⟩
  · have hlt := hinterval.lt_of_ne_nil hempty
    have hends := (hinterval.exists_adjacent_iff hlt h.hi_le hk).1 (htouches.resolve_left hempty)
    have hwrite := h.write hcut hcalendar hlt (mt (hinterval k).2 hk)
    rw [if_pos hends] at hwrite
    obtain ⟨next, hwritten, hpiece⟩ := hwrite
    exact ⟨_, _, next, hinterval.concat hlt hends, hwritten, hpiece⟩

/-- **Chunks that are written in a growing order are all accepted**, and what is stored then is the
piece that they make up. -/
theorem exists_hasPiece (hcut : IsCut calendar asset chunks)
    (hcalendar : calendar.IsLawfulOn Day.IsUnsigned) (hwritable : archive.isReadOnly = false)
    (hnew : archive.store.assetRows asset = []) {order : List (Fin chunks.length)}
    (hnodup : order.Nodup) (hgrowing : IsGrowing order) :
    let written := writeEach calendar .raise asset (order.map chunks.get) archive
    written.1 = order.map (fun k ↦ .ok (.written asset (chunks.get k).length [])) ∧
      ∃ lo hi, IsInterval order lo hi ∧ HasPiece written.2 archive.store asset chunks lo hi := by
  induction order using List.reverseRecOn with
  | nil =>
    refine ⟨rfl, 0, 0, fun k ↦ ?_, hasPiece_of_assetRows hwritable hnew⟩
    exact iff_of_false List.not_mem_nil fun hk ↦ Nat.not_lt_zero k hk.2
  | append_singleton order k ih =>
    obtain ⟨hgrowing, htouches⟩ := isGrowing_concat_iff.1 hgrowing
    obtain ⟨hnodup, hk⟩ : order.Nodup ∧ k ∉ order := by
      rw [← List.concat_eq_append, List.nodup_concat] at hnodup
      exact hnodup.symm
    obtain ⟨hresults, lo, hi, hinterval, hpiece⟩ := ih hnodup hgrowing
    obtain ⟨lo', hi', next, hinterval', hwritten, hpiece'⟩ :=
      hpiece.write_next hcut hcalendar hinterval hk htouches
    rw [List.map_append, List.map_singleton, writeEach_concat, List.map_append,
      List.map_singleton]
    dsimp only
    rw [hwritten, hresults]
    exact ⟨rfl, lo', hi', hinterval', hpiece'⟩

end DailyBars.Writer
