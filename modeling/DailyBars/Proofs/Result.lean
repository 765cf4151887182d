import DailyBars.Error
import Mathlib

/-!
# Results of several steps

A step that fails ends what it is part of, so a result that is there comes from a result of every
step. With `Result.bind_eq_ok_iff` the steps are taken apart without opening the functions that
chain them.
-/

namespace DailyBars.Result

variable {ε α β : Type}

theorem bind_eq_ok_iff {x : Except ε α} {f : α → Except ε β} {b : β} :
    x >>= f = .ok b ↔ ∃ a, x = .ok a ∧ f a = .ok b := by
  cases x with
  | error error => exact iff_of_false (by rintro ⟨⟩) (by rintro ⟨_, ⟨⟩, _⟩)
  | ok a =>
    show f a = .ok b ↔ _
    constructor
    · intro h
      exact ⟨a, rfl, h⟩
    · rintro ⟨_, ⟨rfl⟩, h⟩
      exact h

theorem bind_eq_error_iff {x : Except ε α} {f : α → Except ε β} {error : ε} :
    x >>= f = .error error ↔ x = .error error ∨ ∃ a, x = .ok a ∧ f a = .error error := by
  cases x with
  | error found =>
    show Except.error found = .error error ↔ _
    refine ⟨fun h ↦ .inl (congrArg Except.error (Except.error.inj h)), ?_⟩
    rintro (h | ⟨_, ⟨⟩, _⟩)
    exact congrArg Except.error (Except.error.inj h)
  | ok a =>
    show f a = .error error ↔ _
    refine ⟨fun h ↦ .inr ⟨a, rfl, h⟩, ?_⟩
    rintro (⟨⟨⟩⟩ | ⟨_, ⟨rfl⟩, h⟩)
    exact h

theorem map_eq_ok_iff {x : Except ε α} {f : α → β} {b : β} :
    x.map f = .ok b ↔ ∃ a, x = .ok a ∧ f a = b := by
  cases x with
  | error error => exact iff_of_false (by rintro ⟨⟩) (by rintro ⟨_, ⟨⟩, _⟩)
  | ok a =>
    constructor
    · rintro ⟨rfl⟩
      exact ⟨a, rfl, rfl⟩
    · rintro ⟨_, ⟨rfl⟩, rfl⟩
      rfl

theorem map_eq_error_iff {x : Except ε α} {f : α → β} {error : ε} :
    x.map f = .error error ↔ x = .error error := by
  cases x with
  | error found =>
    constructor
    · rintro ⟨rfl⟩
      rfl
    · rintro ⟨rfl⟩
      rfl
  | ok a => exact iff_of_false (by rintro ⟨⟩) (by rintro ⟨⟩)

theorem mapError_eq_ok_iff {ε' : Type} {x : Except ε α} {f : ε → ε'} {a : α} :
    x.mapError f = .ok a ↔ x = .ok a := by
  cases x with
  | error error => exact iff_of_false (by rintro ⟨⟩) (by rintro ⟨⟩)
  | ok b =>
    constructor
    · rintro ⟨rfl⟩
      rfl
    · rintro ⟨rfl⟩
      rfl

/-- **A list succeeds member by member.** -/
theorem mapM_eq_ok_iff {f : α → Except ε β} {list : List α} {results : List β} :
    list.mapM f = .ok results ↔ List.Forall₂ (fun a b ↦ f a = .ok b) list results := by
  induction list generalizing results with
  | nil =>
    rw [List.mapM_nil, List.forall₂_nil_left_iff]
    exact ⟨fun h ↦ by cases h; rfl, fun h ↦ by rw [h]; rfl⟩
  | cons first rest ih =>
    rw [List.mapM_cons, bind_eq_ok_iff, List.forall₂_cons_left_iff]
    constructor
    · rintro ⟨result, hresult, h⟩
      obtain ⟨later, hlater, h⟩ := bind_eq_ok_iff.1 h
      cases h
      exact ⟨result, later, hresult, ih.1 hlater, rfl⟩
    · rintro ⟨result, later, hresult, hlater, rfl⟩
      exact ⟨result, hresult, bind_eq_ok_iff.2 ⟨later, ih.2 hlater, rfl⟩⟩

/-- A list has as many results as members. -/
theorem length_of_mapM {f : α → Except ε β} {list : List α} {results : List β}
    (h : list.mapM f = .ok results) : results.length = list.length :=
  (mapM_eq_ok_iff.1 h).length_eq.symm

/-- Every result is that of a member. -/
theorem exists_of_mem_of_mapM {f : α → Except ε β} {list : List α} {results : List β} {b : β}
    (h : list.mapM f = .ok results) (hb : b ∈ results) : ∃ a ∈ list, f a = .ok b := by
  obtain ⟨i, hi, rfl⟩ := List.mem_iff_getElem.1 hb
  have hall := mapM_eq_ok_iff.1 h
  have hi' : i < list.length := hall.length_eq ▸ hi
  exact ⟨list[i], List.getElem_mem hi', hall.get hi' hi⟩

/-- A list fails as one of its members does. -/
theorem exists_of_mapM_eq_error {f : α → Except ε β} {list : List α} {error : ε}
    (h : list.mapM f = .error error) : ∃ a ∈ list, f a = .error error := by
  induction list with
  | nil => cases h
  | cons first rest ih =>
    rw [List.mapM_cons] at h
    cases hfirst : f first with
    | error found =>
      rw [hfirst] at h
      cases h
      exact ⟨first, List.mem_cons_self, hfirst⟩
    | ok result =>
      rw [hfirst] at h
      cases hrest : rest.mapM f with
      | error found =>
        obtain ⟨a, ha, herror⟩ := ih (by rw [hrest] at h ⊢; exact h)
        exact ⟨a, List.mem_cons_of_mem _ ha, herror⟩
      | ok results =>
        rw [hrest] at h
        cases h

/-- A list has the results of its members, if their places do not matter. -/
theorem mapM_zipIdx_eq_ok {f : α × Nat → Except ε β} {list : List α} {results : List β}
    (h : List.Forall₂ (fun a b ↦ ∀ i, f (a, i) = .ok b) list results) (start : Nat) :
    (list.zipIdx start).mapM f = .ok results := by
  induction h generalizing start with
  | nil => rfl
  | cons hfirst _ ih =>
    rw [List.zipIdx_cons, List.mapM_cons, hfirst, ih]
    rfl

/-- **A list fails as the first of its members that does.** -/
theorem mapM_eq_error_of_append {f : α → Except ε β} {before after : List α} {a : α} {error : ε}
    (hbefore : ∀ b ∈ before, ∃ result, f b = .ok result) (h : f a = .error error) :
    (before ++ a :: after).mapM f = .error error := by
  induction before with
  | nil =>
    rw [List.nil_append, List.mapM_cons, h]
    rfl
  | cons first before ih =>
    obtain ⟨⟨result, hfirst⟩, hbefore⟩ := List.forall_mem_cons.1 hbefore
    rw [List.cons_append, List.mapM_cons, hfirst, ih hbefore]
    rfl

/-- If a member fails, there is a first one that does. -/
theorem exists_first_error {f : α → Except ε β} {list : List α}
    (h : ∃ a ∈ list, ∃ error, f a = .error error) :
    ∃ before a after error, list = before ++ a :: after ∧
      (∀ b ∈ before, ∃ result, f b = .ok result) ∧ f a = .error error := by
  induction list with
  | nil =>
    obtain ⟨a, ha, -⟩ := h
    exact absurd ha List.not_mem_nil
  | cons first rest ih =>
    cases hfirst : f first with
    | error error =>
      exact ⟨[], first, rest, error, rfl, fun _ hmem ↦ absurd hmem List.not_mem_nil, hfirst⟩
    | ok result =>
      obtain ⟨a, ha, error, herror⟩ := h
      have hrest : a ∈ rest := by
        refine (List.mem_cons.1 ha).resolve_left ?_
        rintro rfl
        cases hfirst.symm.trans herror
      obtain ⟨before, b, after, error, rfl, hbefore, hb⟩ := ih ⟨a, hrest, error, herror⟩
      exact ⟨first :: before, b, after, error, rfl,
        List.forall_mem_cons.2 ⟨⟨result, hfirst⟩, hbefore⟩, hb⟩

/-- **The values of a list are those of its members**, if none of them is missing. -/
theorem mapM_eq_some_iff {f : α → Option β} {list : List α} {values : List β} :
    list.mapM f = some values ↔ list.map f = values.map some := by
  induction list generalizing values with
  | nil => cases values <;> simp
  | cons first rest ih =>
    rw [List.mapM_cons, Option.bind_eq_bind, Option.bind_eq_some_iff, List.map_cons]
    constructor
    · rintro ⟨value, hfirst, h⟩
      obtain ⟨later, hlater, h⟩ := Option.bind_eq_some_iff.1 h
      cases h
      rw [hfirst, ih.1 hlater, List.map_cons]
    · intro h
      obtain ⟨value, later, rfl⟩ : ∃ value later, values = value :: later := by
        refine List.exists_cons_of_ne_nil ?_
        rintro rfl
        cases h
      obtain ⟨hfirst, hrest⟩ := List.cons.inj h
      exact ⟨value, hfirst, Option.bind_eq_some_iff.2 ⟨later, ih.2 hrest, rfl⟩⟩

/-- All members of a list have values, or none of them counts. -/
theorem isSome_mapM (f : α → Option β) (list : List α) :
    (list.mapM f).isSome = list.all fun a ↦ (f a).isSome := by
  induction list with
  | nil => rfl
  | cons first rest ih =>
    rw [List.mapM_cons, List.all_cons, ← ih]
    cases f first with
    | none => rfl
    | some value =>
      show ((rest.mapM f).bind _).isSome = (true && _)
      cases rest.mapM f with
      | none => rfl
      | some values => rfl

/-- The results of a list without what is said of failures. -/
theorem toOption_mapM (f : α → Except ε β) (list : List α) :
    (list.mapM f).toOption = list.mapM fun a ↦ (f a).toOption := by
  induction list with
  | nil => rfl
  | cons first rest ih =>
    rw [List.mapM_cons, List.mapM_cons, ← ih]
    cases f first with
    | error error => rfl
    | ok result =>
      show ((rest.mapM f) >>= _).toOption = ((rest.mapM f).toOption.bind _)
      cases rest.mapM f with
      | error error => rfl
      | ok results => rfl

/-- A list has as many values as members, if none is missing. -/
theorem length_of_mapM_option {f : α → Option β} {list : List α} {values : List β}
    (h : list.mapM f = some values) : values.length = list.length := by
  have hlength := congrArg List.length (mapM_eq_some_iff.1 h)
  rw [List.length_map, List.length_map] at hlength
  exact hlength.symm

end DailyBars.Result
