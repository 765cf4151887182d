import DailyBars.Proofs.Dataset.Additions
import DailyBars.Proofs.Writer.Chunks
import Mathlib

/-!
# Chunks in any order

The history of an asset may be written in chunks, from any one of them to both sides, by writes that
raise. **All writes succeed and the store is the one that a single write would have left**, so that
neither the cut nor the order can be told afterwards, and no read depends on them. What is not
allowed is to leave a chunk out: a chunk that has no neighbour in the store is refused with a gap
that counts at least one session between.

The chunks touch where they follow each other in the cut, which may be across a weekend or a
holiday: the calendar counts sessions, not days.
-/

namespace DailyBars

/-- **Chunks of a run may be written in any order that leaves none out.** -/
theorem writeEach_any_order {calendar : Calendar} (hcalendar : calendar.IsLawfulOn Day.IsUnsigned)
    (calls : List Call) {asset : AssetId}
    (hnew : (run calendar calls .empty).store.assetRows asset = []) {chunks : List (List Bar)}
    (hcut : Writer.IsCut calendar asset chunks) {order : List (Fin chunks.length)}
    (hnodup : order.Nodup) (hgrowing : Writer.IsGrowing order) :
    let archive := run calendar calls .empty
    let whole := Writer.writeBars calendar .raise asset chunks.flatten archive
    let written := Writer.writeEach calendar .raise asset (order.map fun k ↦ chunks[k]) archive
    whole.1 = .ok (.written asset chunks.flatten.length []) ∧
      written.1 = order.map (fun k ↦ .ok (.written asset chunks[k].length [])) ∧
      ((∀ k, k ∈ order) → written.2.store = whole.2.store) ∧
      ∀ k, k ∉ order → order ≠ [] → (¬∃ j ∈ order, Writer.Adjacent j k) →
        ∃ (edge : Edge) (distance : Nat), 2 < distance ∧
          Writer.writeBars calendar .raise asset chunks[k] written.2 =
            (.error (.edgeViolation asset (.gap edge distance 2)), written.2) := by
  intro archive whole written
  have hwritable : archive.isReadOnly = false := (extends_run calendar calls .empty).isReadOnly_eq
  -- A single write is one of the piece that all chunks are.
  obtain ⟨next, hwhole, hall⟩ := (Writer.hasPiece_of_assetRows hwritable hnew).write_initial hcut
    hcalendar (Nat.zero_le chunks.length) (Nat.le_refl _)
  rw [Writer.piece_length] at hwhole
  obtain ⟨hresults, lo, hi, hinterval, hpiece⟩ :=
    Writer.exists_hasPiece hcut hcalendar hwritable hnew hnodup hgrowing
  refine ⟨congrArg Prod.fst hwhole, hresults, fun hcomplete ↦ ?_, fun k hk hne hapart ↦ ?_⟩
  · rw [show whole = _ from hwhole]
    refine hpiece.isUpdate.eq ?_
    have hpieces : Writer.piece chunks lo hi = Writer.piece chunks 0 chunks.length := by
      rcases hinterval.eq_of_forall_mem hpiece.le hpiece.hi_le hcomplete with
        ⟨rfl, hnone⟩ | ⟨rfl, rfl⟩
      · rw [Writer.piece_self, hnone, Writer.piece_self]
      · rfl
    rw [hpieces]
    exact hall.isUpdate
  · have hlt := hinterval.lt_of_ne_nil hne
    have hwrite := hpiece.write hcut hcalendar hlt (mt (hinterval k).2 hk)
    rwa [if_neg (mt (hinterval.exists_adjacent_iff hlt hpiece.hi_le hk).2 hapart)] at hwrite

namespace Sample

/-- Five sessions in three chunks; the weekend is in the second one. -/
def chunks : List (List Bar) :=
  [[bar ⟨8⟩ 2 10, bar ⟨8⟩ 3 20], [bar ⟨8⟩ 4 30, bar ⟨8⟩ 7 40], [bar ⟨8⟩ 8 50]]

theorem isCut_chunks : Writer.IsCut weekdays ⟨8⟩ chunks where
  nonempty := by decide
  asset_eq := by decide
  numbers := by decide
  unsigned := by decide
  isRun := by
    intro first last hfirst hlast
    obtain rfl : day 2 = first := Option.some_inj.1 hfirst
    obtain rfl : day 8 = last := Option.some_inj.1 hlast
    have hsessions : weekdays.sessionsIn (day 2) (day 8) = [day 2, day 3, day 4, day 7, day 8] := by
      cbv
    exact hsessions.symm

/-- The second chunk, the one after it, and the one before it. -/
def fromTheMiddle : List (Fin chunks.length) :=
  [⟨1, by decide⟩, ⟨2, by decide⟩, ⟨0, by decide⟩]

theorem isGrowing_fromTheMiddle : Writer.IsGrowing fromTheMiddle := by
  have hone : Writer.IsGrowing ([] ++ [(⟨1, by decide⟩ : Fin chunks.length)]) :=
    Writer.isGrowing_concat_iff.2 ⟨Writer.isGrowing_nil, Or.inl rfl⟩
  have htwo := Writer.isGrowing_concat_iff.2 ⟨hone, Or.inr
    ⟨⟨1, by decide⟩, List.mem_cons_self, (Or.inl rfl : Writer.Adjacent _ ⟨2, by decide⟩)⟩⟩
  exact Writer.isGrowing_concat_iff.2 ⟨htwo, Or.inr
    ⟨⟨1, by decide⟩, List.mem_cons_self, (Or.inr rfl : Writer.Adjacent _ ⟨0, by decide⟩)⟩⟩

end Sample

/-- The chunks are written from the middle. After the first one alone the third is refused. -/
theorem writeEach_any_order_from_the_middle :
    let archive := run Sample.weekdays Sample.middle .empty
    let write := fun chunks ↦ Writer.writeEach Sample.weekdays .raise ⟨8⟩ chunks archive
    archive.store.rowCount = 2 ∧
      (write (Sample.fromTheMiddle.map fun k ↦ Sample.chunks[k])).2.store =
        (Writer.writeBars Sample.weekdays .raise ⟨8⟩ Sample.chunks.flatten archive).2.store ∧
      ∃ (edge : Edge) (distance : Nat), 2 < distance ∧
        (Writer.writeBars Sample.weekdays .raise ⟨8⟩ [Sample.bar ⟨8⟩ 8 50]
          (write [[Sample.bar ⟨8⟩ 2 10, Sample.bar ⟨8⟩ 3 20]]).2).1 =
          .error (.edgeViolation ⟨8⟩ (.gap edge distance 2)) := by
  have hcount : (run Sample.weekdays Sample.middle .empty).store.rowCount = 2 := by cbv
  have hnew : (run Sample.weekdays Sample.middle .empty).store.assetRows ⟨8⟩ = [] := by cbv
  obtain ⟨-, -, hstore, -⟩ := writeEach_any_order Sample.isLawfulOn_weekdays Sample.middle hnew
    Sample.isCut_chunks (by decide) Sample.isGrowing_fromTheMiddle
  have hone : Writer.IsGrowing ([] ++ [(⟨0, by decide⟩ : Fin Sample.chunks.length)]) :=
    Writer.isGrowing_concat_iff.2 ⟨Writer.isGrowing_nil, Or.inl rfl⟩
  obtain ⟨-, -, -, hrefused⟩ := writeEach_any_order Sample.isLawfulOn_weekdays Sample.middle hnew
    Sample.isCut_chunks (by decide) hone
  obtain ⟨edge, distance, hdistance, hwritten⟩ :=
    hrefused ⟨2, by decide⟩ (by decide) (by decide) (by unfold Writer.Adjacent; decide)
  exact ⟨hcount, hstore (by decide), edge, distance, hdistance, congrArg Prod.fst hwritten⟩

end DailyBars
