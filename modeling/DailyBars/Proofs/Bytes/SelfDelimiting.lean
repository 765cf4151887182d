import Mathlib.Data.List.Basic
import Mathlib.Logic.Function.Basic

/-!
# Self-delimiting codes

A code writes each value as a word. It is self-delimiting if the word at the front of a text can be
told **whatever follows it** (`SelfDelimiting`), so that words need no mark between them: a list of
values is determined by its words one after the other (`SelfDelimiting.flatMap_injective`), and of a
record of several parts one part is read off after the other.

Words of one length are self-delimiting, if they are different for different values; words of
different lengths may be, where they show where they end.
-/

namespace DailyBars

/-- The word of a code at the front of a text, and what follows it, are determined by the text. -/
def SelfDelimiting {α γ : Type} (code : α → List γ) : Prop :=
  ∀ ⦃a b : α⦄ ⦃xs ys : List γ⦄, code a ++ xs = code b ++ ys → a = b ∧ xs = ys

namespace SelfDelimiting

variable {α γ δ : Type} {code : α → List γ}

theorem injective (h : SelfDelimiting code) : Function.Injective code := by
  intro a b heq
  exact (h (congrArg (· ++ []) heq)).1

/-- Different words of one length are self-delimiting. -/
theorem of_length (width : Nat) (hlength : ∀ a, (code a).length = width)
    (hinjective : Function.Injective code) : SelfDelimiting code := by
  intro a b xs ys h
  obtain ⟨hword, hrest⟩ := List.append_inj h ((hlength a).trans (hlength b).symm)
  exact ⟨hinjective hword, hrest⟩

/-- The symbols of the words may be written as others, if they can be told from these. What follows
a word need not be made of such symbols, so only the words are read back. -/
theorem map (h : SelfDelimiting code) {f : γ → δ} (back : δ → γ)
    (hback : ∀ a, ∀ symbol ∈ code a, back (f symbol) = symbol) :
    SelfDelimiting fun a ↦ (code a).map f := by
  have hread : ∀ a, ((code a).map f).map back = code a := by
    intro a
    rw [List.map_map]
    exact List.map_congr_left (hback a) |>.trans (List.map_id _)
  intro a b xs ys heq
  have heq' : code a ++ xs.map back = code b ++ ys.map back := by
    have := congrArg (List.map back) heq
    rwa [List.map_append, List.map_append, hread, hread] at this
  obtain rfl := (h heq').1
  exact ⟨rfl, List.append_cancel_left heq⟩

/-- **A list is determined by the words of its members**, one after the other. -/
theorem flatMap_injective (h : SelfDelimiting code) (hne : ∀ a, code a ≠ []) :
    Function.Injective (List.flatMap code) := by
  intro list other heq
  induction list generalizing other with
  | nil =>
    cases other with
    | nil => rfl
    | cons b rest => exact absurd (List.append_eq_nil_iff.1 heq.symm).1 (hne b)
  | cons a rest ih =>
    cases other with
    | nil => exact absurd (List.append_eq_nil_iff.1 heq).1 (hne a)
    | cons b later =>
      rw [List.flatMap_cons, List.flatMap_cons] at heq
      obtain ⟨rfl, hrest⟩ := h heq
      rw [ih hrest]

end SelfDelimiting

end DailyBars
