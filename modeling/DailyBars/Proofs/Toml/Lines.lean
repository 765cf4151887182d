import DailyBars.Proofs.Text.Integer
import DailyBars.Proofs.Toml.Keys
import Mathlib

/-!
# Reading back lines

A document that is written line by line is read line by line: a text that is a line with a
statement, whatever follows (`Toml.IsLine`), is one statement of every document that it begins, so
the statements of a document are those of its lines (`Toml.statements_flatMap`). Headers of tables
are lines, and so are assignments of 64-bit numbers to keys.

A number is one word, and **the word ends where the line ends**; this is why a number reads back in
its line and not with any rest.
-/

namespace DailyBars.Toml

/-! ### Numbers -/

/-- Digits have no underscores to drop. -/
theorem dropUnderscores?_of_all {isDigit : Char → Bool} (hmark : isDigit '_' = false)
    {digits : List Char} (hne : digits ≠ []) (h : digits.all isDigit = true) :
    dropUnderscores? isDigit digits = some digits := by
  induction digits with
  | nil => exact absurd rfl hne
  | cons first rest ih =>
    rw [List.all_cons, Bool.and_eq_true] at h
    cases rest with
    | nil => rw [dropUnderscores?, if_pos h.1]
    | cons second later =>
      have hsecond : second ≠ '_' := by
        rintro rfl
        simp [hmark] at h
      rw [dropUnderscores?]
      · rw [if_pos h.1, ih (List.cons_ne_nil _ _) h.2]
        rfl
      · exact List.cons_ne_nil _ _
      · rintro _ heq
        exact hsecond (List.cons.inj heq).1

theorem wholeDigits?_toDigits (n : Nat) :
    wholeDigits? (Nat.toDigits 10 n) = some (Nat.toDigits 10 n) := by
  unfold wholeDigits?
  split
  · rename_i heq
    cases Text.eq_nil_of_toDigits_eq_cons heq
  · exact dropUnderscores?_of_all rfl Nat.toDigits_ne_nil (Text.all_isDigit_toDigits n)

/-- The text of a number is no number in another base: a zero in front of it stands alone. -/
theorem integer?_int64Text (n : Int64) : integer? (Text.int64Text n).toList = some n.toInt := by
  have hother : ∀ c rest, (Text.int64Text n).toList ≠ '0' :: c :: rest := by
    intro c rest heq
    rw [Text.toList_int64Text] at heq
    split at heq
    · cases (List.cons.inj heq).1
    · cases Text.eq_nil_of_toDigits_eq_cons heq
  unfold integer?
  split
  · rename_i heq
    exact absurd heq (hother _ _)
  · rename_i heq
    exact absurd heq (hother _ _)
  · rename_i heq
    exact absurd heq (hother _ _)
  · rw [Text.splitSign_int64Text]
    dsimp only
    rw [wholeDigits?_toDigits]
    exact congrArg some (Text.signed_ofDigits_toDigits n.toInt)

/-- The characters of a number. -/
theorem isWordChar_of_mem_int64Text {n : Int64} {c : Char} (hc : c ∈ (Text.int64Text n).toList) :
    c = '-' ∨ c.isDigit = true := by
  rw [Text.toList_int64Text, List.mem_append] at hc
  rcases hc with hsign | hdigit
  · split at hsign
    · exact .inl (List.mem_singleton.1 hsign)
    · cases hsign
  · exact .inr (List.all_eq_true.1 (Text.all_isDigit_toDigits _) c hdigit)

/-- A number is no truth value. -/
theorem scalar?_int64Text (n : Int64) :
    scalar? (Text.int64Text n).toList = some (.integer n) := by
  have hletter : ∀ {c : Char} {word : List Char}, c ∈ word → c ≠ '-' → c.isDigit = false →
      (Text.int64Text n).toList ≠ word := by
    rintro c _ hc hsign hdigit rfl
    rcases isWordChar_of_mem_int64Text hc with heq | hyes
    · exact hsign heq
    · exact Bool.false_ne_true (hdigit.symm.trans hyes)
  rw [scalar?, if_neg (hletter (c := 'e') (by decide) (by decide) (by decide)),
    if_neg (hletter (c := 'e') (by decide) (by decide) (by decide)), integer?_int64Text]
  dsimp only
  rw [Text.int64?_toInt]
  rfl

/-- A word that ends its line is read as a whole; no time of day follows it. -/
theorem splitWord_append {word : List Char} (hword : ∀ c ∈ word, isWordChar c = true)
    (rest : List Char) : splitWord (word ++ '\n' :: rest) = (word, '\n' :: rest) := by
  have htake : (word ++ '\n' :: rest).takeWhile isWordChar = word := by
    rw [List.takeWhile_append_of_pos hword]
    exact List.append_nil word
  have hdrop : (word ++ '\n' :: rest).dropWhile isWordChar = '\n' :: rest := by
    rw [List.dropWhile_append_of_pos hword]
    rfl
  unfold splitWord
  dsimp only
  rw [htake, hdrop]
  split
  · rename_i heq
    cases heq
  · rfl

/-- **A number reads back** at the end of a line. -/
theorem value_integerText (depth : Nat) (n : Int64) (rest : List Char) :
    value depth (integerText n ++ '\n' :: rest) = some (.integer n, '\n' :: rest) := by
  have hword : ∀ c ∈ integerText n, isWordChar c = true := by
    intro c hc
    rcases isWordChar_of_mem_int64Text hc with rfl | hdigit
    · rfl
    · simp [isWordChar, Char.isAlphanum, hdigit]
  have hsplit := splitWord_append hword rest
  have hfirst : ∀ {c : Char} {later : List Char}, integerText n ++ '\n' :: rest = c :: later →
      isWordChar c = true ∨ c = '\n' := by
    intro c later heq
    cases htext : integerText n with
    | nil =>
      rw [htext] at heq
      exact .inr (List.cons.inj heq).1.symm
    | cons first others =>
      rw [htext] at heq hword
      rw [← (List.cons.inj heq).1]
      exact .inl (hword first List.mem_cons_self)
  rw [value.eq_def]
  dsimp only
  split
  · rename_i heq
    exact absurd (hfirst heq) (by decide)
  · rename_i heq
    exact absurd (hfirst heq) (by decide)
  · rename_i heq
    exact absurd (hfirst heq) (by decide)
  · rename_i heq
    exact absurd (hfirst heq) (by decide)
  · rw [hsplit]
    dsimp only
    rw [integerText, scalar?_int64Text]
    rfl

/-! ### Statements -/

theorem skipSpaces_cons {c : Char} (h : isSpace c = false) (rest : List Char) :
    skipSpaces (c :: rest) = c :: rest := by
  rw [skipSpaces, List.dropWhile_cons_of_neg (by rw [h]; exact Bool.false_ne_true)]

theorem skipComment_cons {c : Char} (h : c ≠ '#') (rest : List Char) :
    skipComment (c :: rest) = some (c :: rest) := by
  unfold skipComment
  split
  · rename_i heq
    exact absurd (List.cons.inj heq).1 h
  · rfl

/-- A character that is neither a blank nor begins a comment nor ends a line. -/
def IsSolid (c : Char) : Prop :=
  isSpace c = false ∧ c ≠ '#' ∧ c ≠ '\n' ∧ c ≠ '\r'

instance (c : Char) : Decidable (IsSolid c) :=
  inferInstanceAs (Decidable (_ ∧ _))

theorem skipLines_of_skipSpaces {text rest : List Char} {c : Char}
    (h : skipSpaces text = c :: rest) (hc : IsSolid c) : skipLines text = some (c :: rest) := by
  obtain ⟨-, hcomment, hline, hreturn⟩ := hc
  have hskip : skipComment (skipSpaces text) = some (c :: rest) := by
    rw [h, skipComment_cons hcomment]
  rw [skipLines]
  cases text.length with
  | zero => rw [skipLines.go, hskip]
  | succ steps =>
    rw [skipLines.go, hskip]
    split
    · rename_i heq
      exact absurd (List.cons.inj (Option.some_inj.1 heq)).1 hline
    · rename_i heq
      exact absurd (List.cons.inj (Option.some_inj.1 heq)).1 hreturn
    · rfl

theorem skipLines_cons {c : Char} (h : IsSolid c) (rest : List Char) :
    skipLines (c :: rest) = some (c :: rest) :=
  skipLines_of_skipSpaces (skipSpaces_cons h.1 rest) h

/-- A line end in front counts for nothing. -/
theorem skipLines_newline (text : List Char) : skipLines ('\n' :: text) = skipLines text := by
  rw [skipLines, List.length_cons, skipLines.go, skipSpaces_cons rfl, skipComment_cons (by decide)]
  rfl

theorem isSolid_of_isKeyChar {c : Char} (h : isKeyChar c = true) : IsSolid c := by
  refine ⟨?_, ?_, ?_, ?_⟩
  · cases hspace : isSpace c with
    | false => rfl
    | true =>
      rw [isSpace, Bool.or_eq_true, beq_iff_eq, beq_iff_eq] at hspace
      rcases hspace with rfl | rfl <;> exact absurd h (by decide)
  · rintro rfl
    exact absurd h (by decide)
  · rintro rfl
    exact absurd h (by decide)
  · rintro rfl
    exact absurd h (by decide)

/-- A key begins with a character that is solid and no bracket. -/
theorem exists_solid_keyText (text : List Char) : ∃ first rest, keyText text = first :: rest ∧
    IsSolid first ∧ first ≠ '[' := by
  obtain ⟨first, rest, heq, hquote | hquote | hkey⟩ := exists_keyText_eq text
  · exact ⟨first, rest, heq, hquote ▸ by decide⟩
  · exact ⟨first, rest, heq, hquote ▸ by decide⟩
  · refine ⟨first, rest, heq, isSolid_of_isKeyChar hkey, ?_⟩
    rintro rfl
    exact absurd hkey (by decide)

/-- A path of one key. -/
theorem path_keyText (text rest : List Char) (hrest : rest.takeWhile isKeyChar = [])
    (hpoint : ∀ later, skipSpaces rest ≠ '.' :: later) :
    path (keyText text ++ rest) = some (([], String.ofList text), skipSpaces rest) := by
  obtain ⟨first, later, heq, ⟨hspace, -⟩, -⟩ := exists_solid_keyText text
  have hskip : skipSpaces (keyText text ++ rest) = keyText text ++ rest := by
    rw [heq]
    exact skipSpaces_cons hspace _
  rw [path, nestingLimit, path.go, hskip, key_keyText text hrest, Option.bind_eq_bind,
    Option.bind_some]
  dsimp only
  split
  · rename_i heq
    exact absurd heq (hpoint _)
  · rfl

/-- A text is a line with a statement, whatever follows. -/
structure IsLine (text : List Char) (result : Statement) : Prop where
  exists_solid : ∃ first rest, text = first :: rest ∧ IsSolid first
  reads : ∀ rest, statement (text ++ rest) = some (result, '\n' :: rest)

/-- The header of a table is a line. -/
theorem isLine_headerText (key : String) : IsLine (headerText key) (.table [] key) where
  exists_solid := ⟨_, _, rfl, by decide⟩
  reads rest := by
    obtain ⟨first, later, heq, -, hbracket⟩ := exists_solid_keyText key.toList
    have hpath := path_keyText key.toList (']' :: '\n' :: rest) rfl fun _ ↦ by
      rintro ⟨⟩
    have htext : headerText key ++ rest = '[' :: (keyText key.toList ++ ']' :: '\n' :: rest) := by
      simp [headerText]
    rw [htext, statement.eq_def]
    split
    · rename_i hcons
      rw [heq] at hcons
      exact absurd (List.cons.inj (List.cons.inj hcons).2).1 hbracket
    · rename_i hcons
      rw [← (List.cons.inj hcons).2, hpath, String.ofList_toList]
      rfl
    · rename_i hno
      exact absurd rfl (hno _)

/-- **The assignment of a value is a line**, if the value reads back at the end of a line. -/
theorem isLine_assignText (key : String) {text : List Char} {result : Value}
    (hsolid : ∃ first later, text = first :: later ∧ IsSolid first)
    (hvalue : ∀ rest, value (nestingLimit - 1) (text ++ '\n' :: rest) =
      some (result, '\n' :: rest)) :
    IsLine (assignText key text) (.assign [] key result) := by
  obtain ⟨first, later, heq, hfirst, hbracket⟩ := exists_solid_keyText key.toList
  obtain ⟨start, others, htext, hstart, -⟩ := hsolid
  have hline : ∀ rest, assignText key text ++ rest =
      keyText key.toList ++ ' ' :: '=' :: ' ' :: (text ++ '\n' :: rest) := by
    intro rest
    simp [assignText]
  refine ⟨⟨first, later ++ ([' ', '=', ' '] ++ text ++ ['\n']), ?_, hfirst⟩, fun rest ↦ ?_⟩
  · simp [assignText, heq]
  have hpath := path_keyText key.toList (' ' :: '=' :: ' ' :: (text ++ '\n' :: rest)) rfl
    fun _ ↦ by rintro ⟨⟩
  have hskip : skipSpaces (' ' :: (text ++ '\n' :: rest)) = text ++ '\n' :: rest := by
    rw [htext, List.cons_append]
    exact skipSpaces_cons hstart _
  have hread : assignment (value (nestingLimit - 1)) (assignText key text ++ rest) =
      some (([], key, result), '\n' :: rest) := by
    rw [hline, assignment, hpath, String.ofList_toList]
    show (value (nestingLimit - 1) (skipSpaces (' ' :: (text ++ '\n' :: rest)))).bind _ = _
    rw [hskip, hvalue]
    rfl
  rw [statement.eq_def]
  split
  · rename_i hcons
    rw [hline, heq] at hcons
    exact absurd (List.cons.inj hcons).1 hbracket
  · rename_i hcons
    rw [hline, heq] at hcons
    exact absurd (List.cons.inj hcons).1 hbracket
  · rw [hread]
    rfl

/-- The characters of a number are solid. -/
theorem exists_solid_integerText (n : Int64) :
    ∃ first later, integerText n = first :: later ∧ IsSolid first := by
  obtain ⟨first, later, heq⟩ : ∃ first later, integerText n = first :: later := by
    refine List.exists_cons_of_ne_nil ?_
    rw [integerText, Text.toList_int64Text]
    simp [Nat.toDigits_ne_nil]
  have hmem : first ∈ integerText n := by
    rw [heq]
    exact List.mem_cons_self
  refine ⟨first, later, heq, ?_⟩
  rcases isWordChar_of_mem_int64Text hmem with rfl | hdigit
  · decide
  · refine isSolid_of_isKeyChar ?_
    simp [isKeyChar, Char.isAlphanum, hdigit]

/-- The assignment of a number is a line. -/
theorem isLine_assignText_integerText (key : String) (n : Int64) :
    IsLine (assignText key (integerText n)) (.assign [] key (.integer n)) :=
  isLine_assignText key (exists_solid_integerText n) (value_integerText _ n)

/-! ### Documents -/

/-- **The statements of a document are those of its lines**, and then those of the rest. -/
theorem statements_append {lines : List (List Char × Statement)}
    (hlines : ∀ line ∈ lines, IsLine line.1 line.2) (steps : Nat) (rest : List Char) :
    statements (lines.length + steps) (lines.flatMap (·.1) ++ rest) =
      (statements steps rest).map (lines.map (·.2) ++ ·) := by
  induction lines with
  | nil =>
    rw [List.length_nil, Nat.zero_add]
    exact Option.map_id'.symm
  | cons line lines ih =>
    obtain ⟨hline, hlater⟩ := List.forall_mem_cons.1 hlines
    obtain ⟨first, others, htext, hsolid⟩ := hline.exists_solid
    have hskip : ∀ later, skipLines (line.1 ++ later) = some (line.1 ++ later) := by
      intro later
      rw [htext]
      exact skipLines_cons hsolid _
    rw [List.length_cons, Nat.add_right_comm, List.flatMap_cons, List.append_assoc, statements,
      hskip, Option.bind_eq_bind, Option.bind_some]
    split
    · rename_i hnil
      rw [htext] at hnil
      cases hnil
    · rw [hline.reads]
      show (statements (lines.length + steps) (lines.flatMap (·.1) ++ rest)).bind
        (fun later ↦ some (line.2 :: later)) = _
      rw [ih hlater]
      cases statements steps rest with
      | none => rfl
      | some => rfl

theorem statements_newline (steps : Nat) (text : List Char) :
    statements (steps + 1) ('\n' :: text) = statements (steps + 1) text := by
  show (skipLines ('\n' :: text) >>= _) = _
  rw [skipLines_newline]
  rfl

/-- A document of lines only. -/
theorem statements_flatMap {lines : List (List Char × Statement)}
    (hlines : ∀ line ∈ lines, IsLine line.1 line.2) {steps : Nat} (hsteps : lines.length < steps) :
    statements steps (lines.flatMap (·.1)) = some (lines.map (·.2)) := by
  obtain ⟨more, rfl⟩ : ∃ more, steps = lines.length + (more + 1) :=
    Nat.exists_eq_add_of_lt hsteps
  rw [← List.append_nil (lines.flatMap (·.1)), statements_append hlines]
  exact congrArg some (List.append_nil _)

/-- No line is without characters. -/
theorem length_le_of_isLine {lines : List (List Char × Statement)}
    (hlines : ∀ line ∈ lines, IsLine line.1 line.2) :
    lines.length ≤ (lines.flatMap (·.1)).length := by
  induction lines with
  | nil => exact Nat.le_refl 0
  | cons line lines ih =>
    obtain ⟨hline, hlater⟩ := List.forall_mem_cons.1 hlines
    obtain ⟨first, others, htext, -⟩ := hline.exists_solid
    have := ih hlater
    rw [List.flatMap_cons, List.length_append, htext, List.length_cons, List.length_cons]
    omega

end DailyBars.Toml
