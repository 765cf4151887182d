import DailyBars.Proofs.Toml.Keys
import Mathlib

/-!
# Reading back strings

Every text is written as a string that reads back to the same text, in whichever of the four forms
it is written (`Toml.string?_stringText`). What follows must not begin with a quote, which an empty
string, or three quotes at the end of a string on several lines, would take along.

The strings on several lines need care where quotes stand in a row. A string ends at three of them,
and **takes two more that stand before them as its own**, so a reader that comes to a quote has to
look at how many follow (`Toml.IsOpen`). Neither writer puts more than two of its own in a row: one
by escapes, the other because it is not used for such texts. So the quotes in front of what is left
to read are never two and never more than four, except at the start of a row, and this is what the
two inductions over the characters carry.
-/

namespace DailyBars.Toml

/-! ### Quotes in a row -/

/-- The number of marks at the front of a text. -/
def leading (mark : Char) : List Char → Nat
  | [] => 0
  | c :: rest => if c = mark then leading mark rest + 1 else 0

theorem leading_cons_of_ne {mark c : Char} (h : c ≠ mark) (rest : List Char) :
    leading mark (c :: rest) = 0 :=
  if_neg h

theorem leading_cons_self (mark : Char) (rest : List Char) :
    leading mark (mark :: rest) = leading mark rest + 1 :=
  if_pos rfl

theorem leading_eq_zero {mark : Char} {text : List Char} (h : ∀ rest, text ≠ mark :: rest) :
    leading mark text = 0 := by
  cases text with
  | nil => rfl
  | cons c rest =>
    refine leading_cons_of_ne ?_ rest
    rintro rfl
    exact h rest rfl

theorem exists_eq_leading (mark : Char) (text : List Char) :
    ∃ rest, text = List.replicate (leading mark text) mark ++ rest ∧ leading mark rest = 0 := by
  induction text with
  | nil => exact ⟨[], rfl, rfl⟩
  | cons c text ih =>
    rw [leading]
    split
    · rename_i hc
      obtain ⟨rest, htext, hrest⟩ := ih
      refine ⟨rest, ?_, hrest⟩
      rw [List.replicate_succ, List.cons_append, ← htext, hc]
    · rename_i hc
      exact ⟨c :: text, rfl, leading_cons_of_ne hc text⟩

/-- A reader of the front of a text up to the end of a string. -/
abbrev StringReader : Type := List Char → Option (List Char × List Char)

/-- How a string on several lines goes on after a mark, which is one of three or more if the string
ends there. -/
def afterMark (mark : Char) (read : StringReader) : StringReader := fun rest ↦
  match leading mark rest with
  | 0 | 1 => keep mark (read rest)
  | 2 => some ([], rest.drop 2)
  | 3 => some ([mark], rest.drop 3)
  | _ => some ([mark, mark], rest.drop 4)

section

variable {mark : Char} {read : StringReader} {rest : List Char}

theorem afterMark_one (h : ∀ later, rest ≠ mark :: mark :: later) :
    afterMark mark read rest = keep mark (read rest) := by
  rw [afterMark]
  obtain ⟨later, hrest, -⟩ := exists_eq_leading mark rest
  match hcount : leading mark rest with
  | 0 => rfl
  | 1 => rfl
  | count + 2 =>
    rw [hcount] at hrest
    exact absurd hrest (h (List.replicate count mark ++ later))

theorem afterMark_three (h : leading mark rest = 0) :
    afterMark mark read (mark :: mark :: rest) = some ([], rest) := by
  simp [afterMark, leading, h]

theorem afterMark_four (h : leading mark rest = 0) :
    afterMark mark read (mark :: mark :: mark :: rest) = some ([mark], rest) := by
  simp [afterMark, leading, h]

theorem afterMark_five :
    afterMark mark read (mark :: mark :: mark :: mark :: rest) = some ([mark, mark], rest) := by
  simp [afterMark, leading]

end

theorem basicLines_quote (rest : List Char) :
    basicLines ('\x22' :: rest) = afterMark '\x22' basicLines rest := by
  rw [basicLines.eq_def]
  split
  · rename_i heq
    cases heq
  · rename_i heq
    rw [(List.cons.inj heq).2, afterMark_five]
  · rename_i hnext heq
    rw [(List.cons.inj heq).2, afterMark_four]
    exact leading_eq_zero fun later hlater ↦ hnext later (by rw [hlater])
  · rename_i hnext heq
    rw [(List.cons.inj heq).2, afterMark_three]
    exact leading_eq_zero fun later hlater ↦ hnext later (by rw [hlater])
  · rename_i heq
    exact absurd (List.cons.inj heq).1 (by decide)
  · rename_i heq
    exact absurd (List.cons.inj heq).1 (by decide)
  · rename_i heq
    exact absurd (List.cons.inj heq).1 (by decide)
  · rename_i heq
    exact absurd (List.cons.inj heq).1 (by decide)
  · rename_i heq
    exact absurd (List.cons.inj heq).1 (by decide)
  · rename_i hnext _ _ _ _ _ heq
    obtain ⟨rfl, rfl⟩ := List.cons.inj heq
    rw [if_pos ⟨by decide, by decide⟩, afterMark_one fun later ↦ hnext later rfl]

theorem literalLines_quote (rest : List Char) :
    literalLines ('\x27' :: rest) = afterMark '\x27' literalLines rest := by
  rw [literalLines.eq_def]
  split
  · rename_i heq
    cases heq
  · rename_i heq
    rw [(List.cons.inj heq).2, afterMark_five]
  · rename_i hnext heq
    rw [(List.cons.inj heq).2, afterMark_four]
    exact leading_eq_zero fun later hlater ↦ hnext later (by rw [hlater])
  · rename_i hnext heq
    rw [(List.cons.inj heq).2, afterMark_three]
    exact leading_eq_zero fun later hlater ↦ hnext later (by rw [hlater])
  · rename_i heq
    exact absurd (List.cons.inj heq).1 (by decide)
  · rename_i heq
    exact absurd (List.cons.inj heq).1 (by decide)
  · rename_i hnext _ _ heq
    obtain ⟨rfl, rfl⟩ := List.cons.inj heq
    rw [if_pos (by decide), afterMark_one fun later ↦ hnext later rfl]

/-! ### The end of a string on several lines -/

/-- A mark that stands before the text does not bring a string to its end: with it there are less
than three in a row, or the string has the mark as its own and ends after it. -/
def IsOpen (mark : Char) (text : List Char) : Prop :=
  leading mark text ≠ 2 ∧ leading mark text ≤ 4

/-- What is left to read of a string that has `count` marks just before. The marks in front of it
are the string's own, of which there are at most two in a row, or all that is left. -/
def EndsAfter (mark : Char) (count : Nat) (text : List Char) : Prop :=
  leading mark text + count ≤ 2 ∨ 3 ≤ leading mark text ∧ leading mark text + count ≤ 5

theorem EndsAfter.isOpen {mark : Char} {count : Nat} {text : List Char} (hcount : 1 ≤ count)
    (h : EndsAfter mark count text) : IsOpen mark text := by
  unfold EndsAfter at h
  unfold IsOpen
  omega

theorem EndsAfter.cons {mark : Char} {count : Nat} {text : List Char}
    (h : EndsAfter mark (count + 1) text) : EndsAfter mark count (mark :: text) := by
  unfold EndsAfter at *
  rw [leading_cons_self]
  omega

section

variable {mark : Char} {read : StringReader} {rest : List Char}

theorem read_close (hread : ∀ rest, read (mark :: rest) = afterMark mark read rest)
    (hrest : leading mark rest = 0) : read (mark :: mark :: mark :: rest) = some ([], rest) := by
  rw [hread, afterMark_three hrest]

/-- **A mark that the string goes on after is kept**, also where the reader takes it only together
with the end. -/
theorem read_mark (hread : ∀ rest, read (mark :: rest) = afterMark mark read rest)
    (hrest : IsOpen mark rest) : read (mark :: rest) = keep mark (read rest) := by
  obtain ⟨later, htext, hlater⟩ := exists_eq_leading mark rest
  obtain ⟨htwo, hfour⟩ := hrest
  match hcount : leading mark rest, htwo, hfour with
  | 0, _, _ =>
    rw [hread, afterMark, hcount]
    rfl
  | 1, _, _ =>
    rw [hread, afterMark, hcount]
    rfl
  | 3, _, _ =>
    obtain rfl : rest = mark :: mark :: mark :: later := by rwa [hcount] at htext
    rw [hread, afterMark_four hlater, read_close hread hlater]
    rfl
  | 4, _, _ =>
    obtain rfl : rest = mark :: mark :: mark :: mark :: later := by rwa [hcount] at htext
    rw [hread, afterMark_five, hread, afterMark_four hlater]
    rfl

end

/-! ### Basic strings on several lines -/

/-- A character that stands for itself is kept. -/
theorem basicLines_cons {c : Char} (hquote : c ≠ '\x22') (hback : c ≠ '\\')
    (hplain : isPlain c = true) (rest : List Char) :
    basicLines (c :: rest) = keep c (basicLines rest) := by
  rw [basicLines.eq_def]
  split
  · rename_i heq
    cases heq
  · rename_i heq
    exact absurd (List.cons.inj heq).1 hquote
  · rename_i heq
    exact absurd (List.cons.inj heq).1 hquote
  · rename_i heq
    exact absurd (List.cons.inj heq).1 hquote
  · rename_i heq
    exact absurd (List.cons.inj heq).1 hback
  · rename_i heq
    exact absurd (List.cons.inj heq).1 hback
  · rename_i heq
    exact absurd (List.cons.inj heq).1 hback
  · rename_i heq
    rw [(List.cons.inj heq).1] at hplain
    exact absurd hplain (by decide)
  · rename_i heq
    rw [(List.cons.inj heq).1] at hplain
    exact absurd hplain (by decide)
  · rename_i heq
    cases heq
    rw [if_pos ⟨hback, hplain⟩]

/-- A letter that escapes a character is no blank, so the line does not end there. -/
theorem basicLines_escape {letter c : Char} (h : escape? letter = some c) (rest : List Char) :
    basicLines ('\\' :: letter :: rest) = keep c (basicLines rest) := by
  rw [basicLines.eq_def]
  unfold escape? at h
  split at h
  all_goals
    cases h
    try rfl

/-- A character reads back from however it is written. -/
theorem basicLines_escaped (c : Char) (rest : List Char) :
    basicLines (escaped c ++ rest) = keep c (basicLines rest) := by
  unfold escaped
  split
  · exact basicLines_escape rfl rest
  · exact basicLines_escape rfl rest
  · exact basicLines_escape rfl rest
  · exact basicLines_escape rfl rest
  · exact basicLines_escape rfl rest
  · exact basicLines_escape rfl rest
  · exact basicLines_escape rfl rest
  · rename_i hline hfeed hreturn hquote hback
    split
    · rename_i hneeds
      obtain ⟨x, y, z, w, hdigits, hcode⟩ := exists_hex4_of_needsEscape hneeds
      show basicLines ('\\' :: 'u' :: (hex4 c.toNat ++ rest)) = _
      rw [hdigits]
      show basicLines ('\\' :: 'u' :: x :: y :: z :: w :: rest) = _
      rw [basicLines, hcode]
      rfl
    · rename_i hneeds
      exact basicLines_cons hquote hback
        (isPlain_of_needsEscape (Bool.eq_false_iff.2 hneeds) hline) rest

/-- The front of what a character is written as is no quote, if it is none itself or if it is
escaped. -/
theorem leading_escaped (c : Char) (rest : List Char) : leading '\x22' (escaped c ++ rest) = 0 := by
  unfold escaped
  split
  all_goals try rfl
  rename_i hquote _
  split
  · rfl
  · exact leading_cons_of_ne hquote rest

theorem endsAfter_escapedLines (text : List Char) {quotes : Nat} (hquotes : quotes ≤ 2)
    {rest : List Char} (hrest : leading '\x22' rest = 0) :
    EndsAfter '\x22' quotes (escapedLines quotes text ++ '\x22' :: '\x22' :: '\x22' :: rest) := by
  induction text generalizing quotes with
  | nil =>
    refine .inr ?_
    simp only [escapedLines, List.nil_append, leading_cons_self, hrest]
    omega
  | cons c text ih =>
    rw [escapedLines]
    split
    · rename_i hc
      split
      · rename_i hlt
        rw [hc]
        exact (ih hlt).cons
      · exact .inl (by simpa [leading] using hquotes)
    · split
      · rename_i hc
        rw [hc]
        exact .inl (by simpa [leading] using hquotes)
      · rw [List.append_assoc]
        exact .inl (by rw [leading_escaped]; omega)

/-- **A basic string on several lines reads back.** -/
theorem basicLines_escapedLines (text : List Char) {quotes : Nat} (hquotes : quotes ≤ 2)
    {rest : List Char} (hrest : leading '\x22' rest = 0) :
    basicLines (escapedLines quotes text ++ '\x22' :: '\x22' :: '\x22' :: rest) =
      some (text, rest) := by
  induction text generalizing quotes with
  | nil => exact read_close basicLines_quote hrest
  | cons c text ih =>
    rw [escapedLines]
    split
    · rename_i hc
      split
      · rename_i hlt
        have hends := endsAfter_escapedLines text hlt hrest
        rw [hc, List.cons_append, read_mark basicLines_quote (hends.isOpen (by omega)), ih hlt]
        rfl
      · rw [hc]
        show basicLines ('\\' :: '\x22' :: (escapedLines 0 text ++ _)) = _
        rw [basicLines_escape (c := '\x22') rfl, ih (by decide)]
        rfl
    · split
      · rename_i hc
        rw [hc, List.cons_append, basicLines, ih (by decide)]
        rfl
      · rw [List.append_assoc, basicLines_escaped, ih (by decide)]
        rfl

/-! ### Literal strings on several lines -/

theorem literalLines_cons {c : Char} (hquote : c ≠ '\x27') (hplain : isPlain c = true ∨ c = '\n')
    (rest : List Char) : literalLines (c :: rest) = keep c (literalLines rest) := by
  rw [literalLines.eq_def]
  split
  · rename_i heq
    cases heq
  · rename_i heq
    exact absurd (List.cons.inj heq).1 hquote
  · rename_i heq
    exact absurd (List.cons.inj heq).1 hquote
  · rename_i heq
    exact absurd (List.cons.inj heq).1 hquote
  · rename_i heq
    cases heq
    rfl
  · rename_i heq
    rw [(List.cons.inj heq).1] at hplain
    exact absurd hplain (by decide)
  · rename_i hline _ heq
    cases heq
    rw [if_pos (hplain.resolve_right hline)]

theorem le_longestRun_go (mark : Char) (longest current : Nat) (text : List Char) :
    longest ≤ longestRun.go mark longest current text ∧
      current ≤ longestRun.go mark longest current text := by
  induction text generalizing longest current with
  | nil => exact ⟨Nat.le_max_left _ _, Nat.le_max_right _ _⟩
  | cons c text ih =>
    rw [longestRun.go]
    split
    · have := ih longest (current + 1)
      omega
    · have := ih (max longest current) 0
      omega

theorem endsAfter_of_longestRun {mark : Char} {longest current : Nat} {text : List Char}
    (h : longestRun.go mark longest current text ≤ 2) {rest : List Char}
    (hrest : leading mark rest = 0) :
    EndsAfter mark current (text ++ mark :: mark :: mark :: rest) := by
  induction text generalizing longest current with
  | nil =>
    have hcurrent := (le_longestRun_go mark longest current []).2.trans h
    refine .inr ?_
    simp only [List.nil_append, leading_cons_self, hrest]
    omega
  | cons c text ih =>
    have hcurrent := (le_longestRun_go mark longest current (c :: text)).2.trans h
    rw [longestRun.go] at h
    split at h
    · rename_i hc
      rw [hc]
      exact (ih h).cons
    · rename_i hc
      refine .inl ?_
      rw [List.cons_append, leading_cons_of_ne hc]
      omega

/-- **A literal string on several lines reads back**, if it has no three quotes in a row. -/
theorem literalLines_append {longest current : Nat} {text : List Char}
    (hplain : ∀ c ∈ text, isPlain c = true ∨ c = '\n')
    (hrun : longestRun.go '\x27' longest current text ≤ 2) {rest : List Char}
    (hrest : leading '\x27' rest = 0) :
    literalLines (text ++ '\x27' :: '\x27' :: '\x27' :: rest) = some (text, rest) := by
  induction text generalizing longest current with
  | nil => exact read_close literalLines_quote hrest
  | cons c text ih =>
    obtain ⟨hc, hlater⟩ := List.forall_mem_cons.1 hplain
    rw [longestRun.go] at hrun
    split at hrun
    · rename_i hquote
      have hends := endsAfter_of_longestRun hrun hrest
      rw [hquote, List.cons_append, read_mark literalLines_quote (hends.isOpen (by omega)),
        ih hlater hrun]
      rfl
    · rename_i hquote
      rw [List.cons_append, literalLines_cons hquote hc, ih hlater hrun]
      rfl

/-! ### Strings of all forms -/

/-- What follows a string does not begin with a quote of either kind. -/
def NoQuote (rest : List Char) : Prop :=
  leading '\x22' rest = 0 ∧ leading '\x27' rest = 0

/-- A string on several lines whose text has none begins right after its quotes. -/
theorem dropLineEnd_cons {c : Char} (hline : c ≠ '\n') (hreturn : c ≠ '\r') (rest : List Char) :
    dropLineEnd (c :: rest) = c :: rest := by
  unfold dropLineEnd
  split
  · rename_i heq
    exact absurd (List.cons.inj heq).1 hline
  · rename_i heq
    exact absurd (List.cons.inj heq).1 hreturn
  · rfl

theorem string?_quote {text : List Char} (h : ∀ rest, text ≠ '\x22' :: '\x22' :: rest) :
    string? ('\x22' :: text) = basic text := by
  unfold string?
  split
  · rename_i heq
    exact absurd (List.cons.inj heq).2 (h _)
  · rename_i heq
    rw [(List.cons.inj heq).2]
  · rename_i heq
    exact absurd (List.cons.inj heq).1 (by decide)
  · rename_i heq
    exact absurd (List.cons.inj heq).1 (by decide)
  · rename_i hno _ _
    exact absurd rfl (hno text)

theorem string?_basicText (text : List Char) {rest : List Char} (hrest : NoQuote rest) :
    string? (basicText text ++ rest) = some (text, rest) := by
  show string? ('\x22' :: (text.flatMap escaped ++ ['\x22'] ++ rest)) = _
  rw [List.append_assoc, List.singleton_append, string?_quote, basic_flatMap_escaped]
  intro later heq
  have hcount : leading '\x22' (text.flatMap escaped ++ '\x22' :: rest) ≤ 1 := by
    cases text with
    | nil => simp [leading_cons_self, hrest.1]
    | cons c text =>
      rw [List.flatMap_cons, List.append_assoc, leading_escaped]
      exact Nat.zero_le 1
  rw [heq, leading_cons_self, leading_cons_self] at hcount
  omega

theorem string?_literalText {text : List Char} (hne : text ≠ [])
    (htext : ∀ c ∈ text, c ≠ '\x27' ∧ isPlain c = true) (rest : List Char) :
    string? (literalText text ++ rest) = some (text, rest) := by
  obtain ⟨first, later, rfl⟩ := List.exists_cons_of_ne_nil hne
  have hfirst := (htext first List.mem_cons_self).1
  rw [← literal_append htext rest]
  show string? ('\x27' :: (first :: later ++ ['\x27'] ++ rest)) = _
  rw [List.append_assoc, List.singleton_append, List.cons_append]
  unfold string?
  split
  · rename_i heq
    exact absurd (List.cons.inj heq).1 (by decide)
  · rename_i heq
    exact absurd (List.cons.inj heq).1 (by decide)
  · rename_i heq
    exact absurd (List.cons.inj (List.cons.inj heq).2).1 hfirst
  · rename_i heq
    rw [(List.cons.inj heq).2]
  · rename_i hno
    exact absurd rfl (hno _)

/-- No character is written as a line end. -/
theorem exists_escaped_eq (c : Char) :
    ∃ first later, escaped c = first :: later ∧ first ≠ '\n' ∧ first ≠ '\r' := by
  unfold escaped
  split
  all_goals try exact ⟨_, _, rfl, by decide, by decide⟩
  rename_i hline _ hreturn _ _
  split
  · exact ⟨_, _, rfl, by decide, by decide⟩
  · exact ⟨_, _, rfl, hline, hreturn⟩

theorem dropLineEnd_escapedLines {text : List Char} (hlines : '\n' ∉ text) (rest : List Char) :
    dropLineEnd (escapedLines 0 text ++ '\x22' :: rest) =
      escapedLines 0 text ++ '\x22' :: rest := by
  cases text with
  | nil => exact dropLineEnd_cons (by decide) (by decide) rest
  | cons c text =>
    have hc : c ≠ '\n' := fun heq ↦ hlines (heq ▸ List.mem_cons_self)
    rw [escapedLines]
    split
    · rename_i hquote
      rw [if_pos (by decide), hquote]
      exact dropLineEnd_cons (by decide) (by decide) _
    · obtain ⟨first, later, heq, hline, hreturn⟩ := exists_escaped_eq c
      rw [heq]
      exact dropLineEnd_cons hline hreturn _

theorem string?_escapedLines {text : List Char} {hasLines : Bool}
    (hlines : hasLines = false → '\n' ∉ text) {rest : List Char} (hrest : NoQuote rest) :
    string? (inLines '\x22' hasLines (escapedLines 0 text) ++ rest) = some (text, rest) := by
  rw [← basicLines_escapedLines text (Nat.zero_le 2) hrest.1]
  cases hasLines with
  | true =>
    show basicLines (escapedLines 0 text ++ ['\x22', '\x22', '\x22'] ++ rest) = _
    rw [List.append_assoc]
    rfl
  | false =>
    show basicLines (dropLineEnd (escapedLines 0 text ++ ['\x22', '\x22', '\x22'] ++ rest)) = _
    rw [List.append_assoc]
    exact congrArg basicLines (dropLineEnd_escapedLines (hlines rfl) _)

theorem string?_inLines {text : List Char} {hasLines : Bool}
    (htext : ∀ c ∈ text, needsEscape c = false) (hrun : longestRun '\x27' text ≤ 2)
    (hlines : hasLines = false → '\n' ∉ text) {rest : List Char} (hrest : NoQuote rest) :
    string? (inLines '\x27' hasLines text ++ rest) = some (text, rest) := by
  have hplain : ∀ c ∈ text, isPlain c = true ∨ c = '\n' := by
    intro c hc
    by_cases hline : c = '\n'
    · exact .inr hline
    · exact .inl (isPlain_of_needsEscape (htext c hc) hline)
  rw [← literalLines_append hplain hrun hrest.2]
  cases hasLines with
  | true =>
    show literalLines (text ++ ['\x27', '\x27', '\x27'] ++ rest) = _
    rw [List.append_assoc]
    rfl
  | false =>
    show literalLines (dropLineEnd (text ++ ['\x27', '\x27', '\x27'] ++ rest)) = _
    rw [List.append_assoc]
    refine congrArg literalLines ?_
    cases text with
    | nil => exact dropLineEnd_cons (by decide) (by decide) _
    | cons c text =>
      refine dropLineEnd_cons ?_ ?_ _
      · exact fun heq ↦ hlines rfl (heq ▸ List.mem_cons_self)
      · rintro rfl
        exact absurd (htext _ List.mem_cons_self) (by decide)

/-- **Every text reads back from the string that it is written as**, if no quote follows. -/
theorem string?_stringText (text : List Char) {rest : List Char} (hrest : NoQuote rest) :
    string? (stringText text ++ rest) = some (text, rest) := by
  unfold stringText
  dsimp only
  have hbare : (!text.any needsEscape) = true → ∀ c ∈ text, needsEscape c = false := by
    intro h c hc
    rw [Bool.not_eq_true', List.any_eq_false] at h
    exact Bool.eq_false_iff.2 (h c hc)
  have hnot : ∀ {c}, text.contains c = false → c ∉ text := by
    intro c h hc
    rw [List.contains_iff_mem.2 hc] at h
    cases h
  split
  · exact string?_basicText text hrest
  · rename_i hbasic
    split
    · rename_i h
      rw [Bool.and_eq_true, Bool.and_eq_true, Bool.not_eq_true' (text.contains _),
        Bool.not_eq_true' (text.contains _)] at h
      obtain ⟨⟨hneeds, hline⟩, hquote⟩ := h
      refine string?_literalText ?_ (fun c hc ↦ ⟨?_, ?_⟩) rest
      · rintro rfl
        exact hbasic rfl
      · rintro rfl
        exact hnot hquote hc
      · refine isPlain_of_needsEscape (hbare hneeds c hc) ?_
        rintro rfl
        exact hnot hline hc
    · split
      · exact string?_escapedLines hnot hrest
      · split
        · rename_i h
          rw [Bool.and_eq_true, decide_eq_true_eq] at h
          exact string?_inLines (hbare h.1) h.2 hnot hrest
        · split
          · exact string?_escapedLines (fun h ↦ by cases h) hrest
          · exact string?_basicText text hrest

end DailyBars.Toml
