import DailyBars.Toml.Printer
import DailyBars.Toml.Statement
import Mathlib

/-!
# Reading back keys

Every text can be written as a key, and what is written reads back to the same text, whatever
follows that cannot be part of a key (`Toml.key_keyText`). A key without quotes, a basic string and
a literal string are three forms of one text; **the reader tells them apart by the first character
alone**, so no form is taken for another.

The one-line strings read back with any rest behind their closing quotes, which is what the
induction over their characters carries.
-/

namespace DailyBars.Toml

/-! ### Strings on one line -/

/-- A character that needs no escape may stand for itself, unless it ends the line. -/
theorem isPlain_of_needsEscape {c : Char} (hescape : needsEscape c = false) (hline : c ≠ '\n') :
    isPlain c = true := by
  by_cases htab : c = '\t'
  · rw [htab]
    rfl
  · simp only [needsEscape, Bool.or_eq_false_iff, Bool.and_eq_false_iff, decide_eq_false_iff_not,
      bne_eq_false_iff_eq, htab, hline, or_false, beq_eq_false_iff_ne] at hescape
    simp only [isPlain, Bool.or_eq_true, Bool.and_eq_true, decide_eq_true_eq, bne_iff_ne]
    exact Or.inr ⟨by omega, hescape.2⟩

/-- The escapes in hexadecimal digits are of ASCII characters only. -/
theorem codePoint?_hex4 : ∀ n < 0x80,
    (hex4 n).length = 4 ∧ codePoint? (hex4 n) = some (Char.ofNat n) := by
  decide +kernel

/-- An escape in hexadecimal digits has four of them. -/
theorem exists_hex4_of_needsEscape {c : Char} (h : needsEscape c = true) :
    ∃ x y z w, hex4 c.toNat = [x, y, z, w] ∧ codePoint? [x, y, z, w] = some c := by
  have hlt : c.toNat < 0x80 := by
    simp only [needsEscape, Bool.or_eq_true, Bool.and_eq_true, decide_eq_true_eq, beq_iff_eq] at h
    omega
  obtain ⟨hlength, hcode⟩ := codePoint?_hex4 c.toNat hlt
  match hdigits : hex4 c.toNat, hlength with
  | [x, y, z, w], _ =>
    rw [hdigits, Char.ofNat_toNat] at hcode
    exact ⟨x, y, z, w, rfl, hcode⟩

/-- A character that stands for itself is kept. -/
theorem basic_cons {c : Char} (hquote : c ≠ '\x22') (hback : c ≠ '\\') (hplain : isPlain c = true)
    (rest : List Char) : basic (c :: rest) = keep c (basic rest) := by
  rw [basic.eq_def]
  split
  · rename_i heq
    cases heq
  · rename_i heq
    exact absurd (List.cons.inj heq).1 hquote
  · rename_i heq
    exact absurd (List.cons.inj heq).1 hback
  · rename_i heq
    exact absurd (List.cons.inj heq).1 hback
  · rename_i heq
    exact absurd (List.cons.inj heq).1 hback
  · rename_i heq
    cases heq
    rw [if_pos ⟨hback, hplain⟩]

/-- A character reads back from however it is written. -/
theorem basic_escaped (c : Char) (rest : List Char) :
    basic (escaped c ++ rest) = keep c (basic rest) := by
  unfold escaped
  split
  · rfl
  · rfl
  · rfl
  · rfl
  · rfl
  · rfl
  · rfl
  · rename_i hline hfeed hreturn hquote hback
    split
    · rename_i hneeds
      obtain ⟨x, y, z, w, hdigits, hcode⟩ := exists_hex4_of_needsEscape hneeds
      rw [hdigits]
      show basic ('\\' :: 'u' :: x :: y :: z :: w :: rest) = _
      rw [basic, hcode]
      rfl
    · rename_i hneeds
      exact basic_cons hquote hback
        (isPlain_of_needsEscape (Bool.eq_false_iff.2 hneeds) hline) rest

/-- **A basic string reads back**, whatever follows. -/
theorem basic_flatMap_escaped (text rest : List Char) :
    basic (text.flatMap escaped ++ '\x22' :: rest) = some (text, rest) := by
  induction text with
  | nil => rfl
  | cons c text ih =>
    rw [List.flatMap_cons, List.append_assoc, basic_escaped, ih]
    rfl

/-- **A literal string reads back**, whatever follows. -/
theorem literal_append {text : List Char} (h : ∀ c ∈ text, c ≠ '\x27' ∧ isPlain c = true)
    (rest : List Char) : literal (text ++ '\x27' :: rest) = some (text, rest) := by
  induction text with
  | nil => rfl
  | cons c text ih =>
    obtain ⟨⟨hquote, hplain⟩, hlater⟩ := List.forall_mem_cons.1 h
    rw [List.cons_append, literal, if_neg hquote, if_pos hplain, ih hlater]
    rfl

/-! ### Keys -/

/-- What a key is written as begins with a quote or with a character of a key. -/
theorem exists_keyText_eq (text : List Char) : ∃ first rest, keyText text = first :: rest ∧
    (first = '\x22' ∨ first = '\x27' ∨ isKeyChar first = true) := by
  unfold keyText
  dsimp only
  split
  · rename_i hbare
    rw [Bool.and_eq_true, Bool.not_eq_true', List.isEmpty_eq_false_iff, List.all_eq_true] at hbare
    obtain ⟨first, rest, rfl⟩ := List.exists_cons_of_ne_nil hbare.1
    exact ⟨first, rest, rfl, .inr (.inr (hbare.2 first List.mem_cons_self))⟩
  · split
    · exact ⟨_, _, rfl, .inl rfl⟩
    · split
      · exact ⟨_, _, rfl, .inr (.inl rfl)⟩
      · exact ⟨_, _, rfl, .inl rfl⟩

/-- A key without quotes is read up to the first character that is not of a key. -/
theorem key_append {text rest : List Char} (hne : text ≠ [])
    (htext : ∀ c ∈ text, isKeyChar c = true) (hrest : rest.takeWhile isKeyChar = []) :
    key (text ++ rest) = some (String.ofList text, rest) := by
  obtain ⟨first, later, rfl⟩ := List.exists_cons_of_ne_nil hne
  have hfirst := htext first List.mem_cons_self
  have hdrop : rest.dropWhile isKeyChar = rest := by
    have := List.takeWhile_append_dropWhile (p := isKeyChar) (l := rest)
    rwa [hrest, List.nil_append] at this
  rw [key.eq_def]
  split
  · rename_i heq
    rw [(List.cons.inj heq).1] at hfirst
    exact absurd hfirst (by decide)
  · rename_i heq
    rw [(List.cons.inj heq).1] at hfirst
    exact absurd hfirst (by decide)
  · dsimp only
    rw [List.takeWhile_append_of_pos htext, List.dropWhile_append_of_pos htext, hrest,
      List.append_nil, hdrop]
    rfl

theorem key_basicText (text rest : List Char) :
    key (basicText text ++ rest) = some (String.ofList text, rest) := by
  show key ('\x22' :: (text.flatMap escaped ++ ['\x22'] ++ rest)) = _
  rw [key, List.append_assoc, List.singleton_append, basic_flatMap_escaped]
  rfl

/-- **A key reads back**, if what follows does not go on with a character of a key. -/
theorem key_keyText (text : List Char) {rest : List Char} (hrest : rest.takeWhile isKeyChar = []) :
    key (keyText text ++ rest) = some (String.ofList text, rest) := by
  unfold keyText
  dsimp only
  split
  · rename_i hbare
    rw [Bool.and_eq_true, Bool.not_eq_true', List.isEmpty_eq_false_iff, List.all_eq_true] at hbare
    exact key_append hbare.1 hbare.2 hrest
  · split
    · exact key_basicText text rest
    · split
      · rename_i hliteral
        rw [Bool.and_eq_true, Bool.not_eq_true', Bool.not_eq_true', List.any_eq_false] at hliteral
        show key ('\x27' :: (text ++ ['\x27'] ++ rest)) = _
        rw [key, List.append_assoc, List.singleton_append, literal_append fun c hc ↦ ?_]
        · rfl
        · have hc' := hliteral.1 c hc
          rw [Bool.not_eq_true, Bool.or_eq_false_iff, beq_eq_false_iff_ne] at hc'
          refine ⟨fun heq ↦ ?_, isPlain_of_needsEscape hc'.1 hc'.2⟩
          rw [heq] at hc
          simp [hc] at hliteral
      · exact key_basicText text rest

end DailyBars.Toml
