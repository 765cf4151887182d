import DailyBars.Proofs.Files.Keeping
import Mathlib

/-!
# Writing files

A text that is written to a path is what the path leads to from then on
(`Files.lookup?_write?`). **Where writing fails, no file has come to be**: neither the directories
that were made on the way nor the path itself lead to one (`Files.content?_makeParents`,
`Files.isUnwritten_of_write?_eq_none`).
-/

namespace DailyBars.Files

variable {files next : Files} {location start : Location} {path text : String}

/-! ### Walks -/

/-- Where a walk ends does not depend on the files; whether it ends there does. -/
theorem eq_foldl_of_walk {components : List String}
    (h : files.walk start components = some location) :
    location = components.foldl step start := by
  induction components generalizing start with
  | nil => exact (Option.some.inj h).symm
  | cons component rest ih =>
    rw [walk] at h
    split at h
    · exact ih h
    · cases h

theorem eq_foldl_of_locate? (h : files.locate? path = some location) :
    location = (parts path).2.foldl step (parts path).1 := by
  rw [locate?] at h
  split at h
  · exact eq_foldl_of_walk h
  · cases h

theorem step_of_isNamed_eq_false {component : String} (h : isNamed component = false)
    (location : Location) : step location component = location := by
  rw [isNamed, Bool.and_eq_false_iff] at h
  rw [step, if_pos]
  simpa [bne] using h

/-- The components that name nothing can be left out of a walk. -/
theorem walk_filter_isNamed {components : List String}
    (h : files.walk start components = some location) :
    files.walk start (components.filter isNamed) = some location := by
  induction components generalizing start with
  | nil => exact h
  | cons component rest ih =>
    rw [walk] at h
    split at h
    · rename_i hdirectory
      cases hnamed : isNamed component with
      | true =>
        rw [List.filter_cons_of_pos hnamed, walk, if_pos hdirectory]
        exact ih h
      | false =>
        rw [step_of_isNamed_eq_false hnamed] at h
        rw [List.filter_cons_of_neg (by rw [hnamed]; exact Bool.false_ne_true)]
        exact ih h
    · cases h

/-- A walk ends at what is no directory, if there is still a way to go. -/
theorem walk_cons_eq_none {component last : String}
    (h : files.isDirectory (step start component) = false) (rest : List String) :
    files.walk start (component :: (rest ++ [last])) = none := by
  have hnext : files.walk (step start component) (rest ++ [last]) = none := by
    cases rest with
    | nil => exact if_neg (by rw [h]; exact Bool.false_ne_true)
    | cons => exact if_neg (by rw [h]; exact Bool.false_ne_true)
  rw [walk, hnext]
  exact ite_self none

/-- Where directories cannot be made, there is no way on. -/
theorem walk_makeAlong_eq_none {components : List String}
    (h : (files.makeAlong start components).1 = false) (last : String) :
    (files.makeAlong start components).2.walk start (components ++ [last]) = none := by
  induction components generalizing files start with
  | nil => cases h
  | cons component rest ih =>
    have hgo : ∀ {next : Files}, (next.makeAlong (step start component) rest).1 = false →
        (next.makeAlong (step start component) rest).2.walk start
          (component :: (rest ++ [last])) = none := by
      intro next hfalse
      rw [walk, ih hfalse]
      exact ite_self none
    rw [makeAlong] at h ⊢
    split at h
    · exact hgo h
    · rename_i node hnot heq
      refine walk_cons_eq_none (Bool.eq_false_iff.2 fun hdirectory ↦ hnot ?_) rest
      exact Option.some.inj (heq.symm.trans (isDirectory_iff.1 hdirectory))
    · rename_i heq
      split at h
      · rename_i hname
        rw [if_pos hname]
        exact hgo h
      · rename_i hname
        rw [if_neg hname]
        refine walk_cons_eq_none (Bool.eq_false_iff.2 fun hdirectory ↦ ?_) rest
        exact Option.some_ne_none _ ((isDirectory_iff.1 hdirectory).symm.trans heq)

theorem content?_eq_none_of_locate? (h : files.locate? path = none) :
    files.content? path = none := by
  rw [content?, lookup?, h]
  rfl

/-- **Where the directories of a path cannot be made, no file has come to be there.** -/
theorem content?_makeParents (h : (files.makeParents path).1 = false)
    (habsent : files.content? path = none) :
    (files.makeParents path).2.content? path = none := by
  rw [makeParents] at h ⊢
  split at h
  · rename_i hparent
    rw [if_pos hparent]
    refine content?_eq_none_of_locate? <|
      Option.eq_none_iff_forall_ne_some.2 fun location hlocate ↦ ?_
    rw [locate?] at hlocate
    split at hlocate
    · -- The path has a last component that names something, or no directories were asked for.
      have hne : namedParts path ≠ [] := by
        intro hnil
        rw [hnil] at h
        cases h
      have hwalk := walk_filter_isNamed hlocate
      have hnone := walk_makeAlong_eq_none h ((namedParts path).getLast hne)
      rw [List.dropLast_append_getLast hne] at hnone
      exact Option.some_ne_none _ (hwalk.symm.trans hnone)
    · cases hlocate
  · rename_i hparent
    rwa [if_neg hparent]

/-! ### Written files -/

/-- No file is at a path, or none can ever be written there. -/
def IsUnwritten (files : Files) (path : String) : Prop :=
  files.content? path = none ∨ ∀ (other : Files) (text : String), other.write? path text = none

theorem IsUnwritten.release {opened : List OpenStore} (h : files.IsUnwritten path) :
    (files.release opened).IsUnwritten path :=
  h.imp_left fun hcontent ↦ by rwa [content?, lookup?_release, ← content?]

theorem isUnwritten_of_write?_eq_none (h : files.write? path text = none) :
    files.IsUnwritten path := by
  cases hlocate : files.locate? path with
  | none => exact .inl (content?_eq_none_of_locate? hlocate)
  | some location =>
    cases hdirectory : files.isDirectory location with
    | true =>
      refine .inl ?_
      rw [content?, lookup?, hlocate, Option.bind_some, isDirectory_iff.1 hdirectory]
    | false =>
      have hlong : location.getLast?.all isName = false := by
        rw [write?, hlocate] at h
        by_contra hname
        rw [Bool.not_eq_false] at hname
        simp [hdirectory, hname] at h
      refine .inr fun other text ↦ ?_
      rw [write?]
      cases hother : other.locate? path with
      | none => rfl
      | some found =>
        have hfound : found = location :=
          (eq_foldl_of_locate? hother).trans (eq_foldl_of_locate? hlocate).symm
        simp [hfound, hlong]

/-- **What was written is what the path leads to.** -/
theorem lookup?_write? (h : files.write? path text = some next) :
    next.lookup? path = some (.file (Text.pieces text.toList)) := by
  rw [write?] at h
  obtain ⟨location, hlocate, hput⟩ := Option.bind_eq_some_iff.1 h
  split at hput
  · cases hput
  · rename_i hfile
    rw [Bool.or_eq_true, not_or, Bool.not_eq_true] at hfile
    obtain rfl : files.put location (.file (Text.pieces text.toList)) = next := by
      simpa using hput
    have hkept : ∀ other, files.isDirectory other = true →
        (files.put location (.file (Text.pieces text.toList))).isDirectory other = true := by
      intro other hother
      rw [isDirectory_iff, node?_put]
      split
      · rfl
      · rw [if_neg]
        · exact isDirectory_iff.1 hother
        · rintro rfl
          exact Bool.false_ne_true (hfile.1.symm.trans hother)
    have habove : isAbove location = false := by
      cases h : isAbove location with
      | false => rfl
      | true =>
        have hdirectory : files.isDirectory location = true := by
          rw [isDirectory_iff, node?, if_pos h]
        exact absurd hdirectory (by rw [hfile.1]; exact Bool.false_ne_true)
    rw [lookup?, locate?_eq_some hkept hlocate, Option.bind_some, node?_put,
      if_neg (by rw [habove]; exact Bool.false_ne_true), if_pos rfl]

end DailyBars.Files
