import DailyBars.Proofs.Toml.Lines
import DailyBars.Proofs.Toml.Strings
import Mathlib

/-!
# Reading back strings and arrays as values

A text is a value if it reads back as that value at every depth (`Toml.IsValue`). Strings are, in
whichever form they are written, and so are arrays of values, except that an array takes one of the
depths. An array on several lines ends its last item with a comma too, so **after each comma stands
the same as after the bracket**: a line end, and then one more item or the end of the array. The
induction over the items is on this.
-/

namespace DailyBars.Toml

/-- A text is read as a value, whatever follows that is no quote. -/
structure IsValue (text : List Char) (result : Value) : Prop where
  exists_solid : ∃ first later, text = first :: later ∧ IsSolid first ∧ first ≠ ']'
  reads : ∀ (depth : Nat) {rest : List Char}, NoQuote rest →
    value depth (text ++ rest) = some (result, rest)

theorem noQuote_cons {c : Char} (hbasic : c ≠ '\x22') (hliteral : c ≠ '\x27')
    (rest : List Char) : NoQuote (c :: rest) :=
  ⟨leading_cons_of_ne hbasic rest, leading_cons_of_ne hliteral rest⟩

/-! ### Strings -/

theorem exists_stringText_eq (text : List Char) :
    ∃ mark later, stringText text = mark :: later ∧ (mark = '\x22' ∨ mark = '\x27') := by
  unfold stringText
  dsimp only
  split
  · exact ⟨_, _, rfl, .inl rfl⟩
  split
  · exact ⟨_, _, rfl, .inr rfl⟩
  split
  · exact ⟨_, _, rfl, .inl rfl⟩
  split
  · exact ⟨_, _, rfl, .inr rfl⟩
  split
  · exact ⟨_, _, rfl, .inl rfl⟩
  · exact ⟨_, _, rfl, .inl rfl⟩

/-- **Every text is a value** in the form in which it is written. -/
theorem isValue_stringText (text : String) : IsValue (stringText text.toList) (.text text) where
  exists_solid := by
    obtain ⟨mark, later, heq, rfl | rfl⟩ := exists_stringText_eq text.toList
    · exact ⟨_, later, heq, by decide, by decide⟩
    · exact ⟨_, later, heq, by decide, by decide⟩
  reads depth rest hrest := by
    have hread := string?_stringText text.toList hrest
    obtain ⟨mark, later, heq, hmark⟩ := exists_stringText_eq text.toList
    rw [heq, List.cons_append] at hread ⊢
    rw [value.eq_def]
    rcases hmark with rfl | rfl
    · dsimp only
      rw [hread, Option.map_some, String.ofList_toList]
      rfl
    · dsimp only
      rw [hread, Option.map_some, String.ofList_toList]
      rfl

/-! ### Arrays -/

/-- An item after a line end and blanks. -/
theorem IsValue.skipLines {text : List Char} {result : Value} (h : IsValue text result)
    (rest : List Char) :
    Toml.skipLines ('\n' :: ("    ".toList ++ (text ++ rest))) = some (text ++ rest) := by
  obtain ⟨first, later, rfl, hsolid, -⟩ := h.exists_solid
  rw [skipLines_newline]
  exact skipLines_of_skipSpaces (skipSpaces_cons hsolid.1 _) hsolid

/-- An item on a line of its own. -/
def itemLine (item : List Char) : List Char :=
  "    ".toList ++ item ++ [',', '\n']

theorem length_le_of_itemLine (texts : List (List Char)) :
    texts.length ≤ (texts.flatMap itemLine).length := by
  induction texts with
  | nil => exact Nat.le_refl 0
  | cons text texts ih =>
    simp only [List.flatMap_cons, List.length_append, List.length_cons, itemLine]
    omega

/-- An item is read with the comma or the bracket after it. -/
theorem items_item {item : List Char} {result : Value} (h : IsValue item result) {text : List Char}
    {mark : Char} {later : List Char} (htext : skipLines text = some (item ++ mark :: later))
    (hmark : mark = ']' ∨ mark = ',') (depth steps : Nat) :
    items (value depth) (steps + 1) text =
      if mark = ']' then some ([result], later)
      else (items (value depth) steps later).map fun (more, rest) ↦ (result :: more, rest) := by
  obtain ⟨first, others, hcons, -, hbracket⟩ := h.exists_solid
  have hrest : NoQuote (mark :: later) := by
    rcases hmark with rfl | rfl
    · exact noQuote_cons (by decide) (by decide) later
    · exact noQuote_cons (by decide) (by decide) later
  rw [items, htext, Option.bind_eq_bind, Option.bind_some]
  split
  · rename_i heq
    rw [hcons] at heq
    exact absurd (List.cons.inj heq).1 hbracket
  · rw [h.reads depth hrest, Option.bind_eq_bind, Option.bind_some]
    dsimp only
    rcases hmark with rfl | rfl
    · rw [skipLines_cons (by decide)]
      rfl
    · rw [skipLines_cons (by decide), if_neg (by decide)]
      show (items (value depth) steps later).bind _ = _
      cases items (value depth) steps later with
      | none => rfl
      | some => rfl

/-- **The items of an array on several lines read back**, and so do those that are left of it after
a comma. -/
theorem items_lines {texts : List (List Char)} {values : List Value}
    (h : List.Forall₂ IsValue texts values) (depth : Nat) {steps : Nat}
    (hsteps : texts.length < steps) (rest : List Char) :
    items (value depth) steps ('\n' :: (texts.flatMap itemLine ++ ']' :: rest)) =
      some (values, rest) := by
  induction h generalizing steps with
  | nil =>
    obtain ⟨steps, rfl⟩ := Nat.exists_eq_add_one_of_ne_zero (Nat.ne_zero_of_lt hsteps)
    rw [List.flatMap_nil, List.nil_append, items, skipLines_newline, skipLines_cons (by decide)]
    rfl
  | @cons text result texts values hitem hmore ih =>
    obtain ⟨steps, rfl⟩ := Nat.exists_eq_add_one_of_ne_zero (Nat.ne_zero_of_lt hsteps)
    have hskip := hitem.skipLines (',' :: '\n' :: (texts.flatMap itemLine ++ ']' :: rest))
    have htext : (text :: texts).flatMap itemLine ++ ']' :: rest = "    ".toList ++
        (text ++ ',' :: '\n' :: (texts.flatMap itemLine ++ ']' :: rest)) := by
      simp only [itemLine, List.flatMap_cons, List.append_assoc, List.cons_append, List.nil_append]
    rw [htext, items_item hitem hskip (.inr rfl), if_neg (by decide),
      ih (Nat.lt_of_succ_lt_succ hsteps)]
    rfl

theorem value_bracket (depth : Nat) (rest : List Char) : value (depth + 1) ('[' :: rest) =
    (items (value depth) (rest.length + 1) rest).map fun (items, rest) ↦ (.array items, rest) := by
  rw [value.eq_def]
  rfl

/-- **An array of values reads back**, one deeper than its items. -/
theorem value_arrayText {texts : List (List Char)} {values : List Value}
    (h : List.Forall₂ IsValue texts values) (depth : Nat) (rest : List Char) :
    value (depth + 1) (arrayText texts ++ rest) = some (.array values, rest) := by
  match texts, values, h with
  | [], [], _ =>
    show value (depth + 1) ('[' :: ']' :: rest) = _
    rw [value_bracket, items, skipLines_cons (by decide)]
    rfl
  | [text], [result], .cons hitem _ =>
    have htext : arrayText [text] ++ rest = '[' :: (text ++ ']' :: rest) := by
      simp [arrayText]
    have hskip : skipLines (text ++ ']' :: rest) = some (text ++ ']' :: rest) := by
      obtain ⟨first, later, rfl, hsolid, -⟩ := hitem.exists_solid
      exact skipLines_cons hsolid _
    rw [htext, value_bracket, items_item hitem hskip (.inl rfl), if_pos rfl]
    rfl
  | first :: second :: texts, values, h =>
    have htext : arrayText (first :: second :: texts) ++ rest =
        '[' :: '\n' :: ((first :: second :: texts).flatMap itemLine ++ ']' :: rest) := by
      show '[' :: '\n' :: (_ ++ [']'] ++ rest) = _
      rw [List.append_assoc]
      rfl
    have hsteps := length_le_of_itemLine (first :: second :: texts)
    rw [htext, value_bracket, items_lines h]
    · rfl
    · simp only [List.length_cons, List.length_append] at hsteps ⊢
      omega

theorem exists_solid_arrayText (texts : List (List Char)) :
    ∃ first later, arrayText texts = first :: later ∧ IsSolid first := by
  unfold arrayText
  split
  · exact ⟨_, _, rfl, by decide⟩
  · exact ⟨_, _, rfl, by decide⟩
  · exact ⟨_, _, rfl, by decide⟩

end DailyBars.Toml
