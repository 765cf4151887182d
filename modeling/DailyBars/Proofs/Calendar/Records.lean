import DailyBars.Calendar.SessionFile
import Mathlib

/-!
# Records as they are written

One list of records can be written in many ways (`SessionFile.Writes`): a field may be between
quotes even if it needs none, lines end in any of three ways, the last of them may have no end, and
empty lines may be anywhere. **Reading has the records back from each of them**
(`SessionFile.records_of_writes`). An entry moves the reader to a place that is neither between
quotes nor, if anything of the record has been read, before a record (`SessionFile.scan_entry`);
there a comma ends the field and a line end the record. So records come by induction on their
fields, and a text by induction on its lines.
-/

namespace DailyBars.SessionFile

open Text (Piece)

/-! ### Texts of records -/

/-- The characters that end a field without quotes. -/
def IsSeparator (piece : Piece) : Prop :=
  piece = .char ',' ∨ piece = .char '\n' ∨ piece = .char '\r'

instance : DecidablePred IsSeparator := fun _ ↦ inferInstanceAs (Decidable (_ ∨ _))

/-- The entries that can be written without quotes. -/
def IsPlain (entry : Entry) : Prop :=
  (∀ piece ∈ entry, ¬IsSeparator piece) ∧ entry.head? ≠ some (.char '\x22')

instance : DecidablePred IsPlain := fun _ ↦ inferInstanceAs (Decidable (_ ∧ _))

/-- A piece between quotes; a quote is there twice. -/
def inQuotes (piece : Piece) : List Piece :=
  if piece = .char '\x22' then [piece, piece] else [piece]

/-- The texts of an entry: as it is, if it is plain, and between quotes. -/
inductive WritesEntry (entry : Entry) : List Piece → Prop
  | plain : IsPlain entry → WritesEntry entry entry
  | quoted : WritesEntry entry (.char '\x22' :: entry.flatMap inQuotes ++ [.char '\x22'])

/-- The texts of a record, its entries between commas. -/
inductive WritesRecord : List Entry → List Piece → Prop
  | last {entry text} : WritesEntry entry text → WritesRecord [entry] text
  | cons {entry text record rest} : WritesEntry entry text → WritesRecord record rest →
      WritesRecord (entry :: record) (text ++ .char ',' :: rest)

/-- The ends of a line. -/
def lineEnds : List (List Piece) :=
  [[.char '\n'], [.char '\r', .char '\n'], [.char '\r']]

/-- The texts of some records. A record that would be an empty line is not written as it is. -/
inductive Writes : List (List Entry) → List Piece → Prop
  | nil : Writes [] []
  | emptyLine {records lineEnd rest} : lineEnd ∈ lineEnds → Writes records rest →
      Writes records (lineEnd ++ rest)
  | last {record text} : WritesRecord record text → text ≠ [] → Writes [record] text
  | line {record text lineEnd records rest} : WritesRecord record text → text ≠ [] →
      lineEnd ∈ lineEnds → Writes records rest →
      Writes (record :: records) (text ++ lineEnd ++ rest)

/-! ### What a piece does -/

variable {place : Place} {piece : Piece} {field : Entry} {done : List Entry} {rest : List Piece}

theorem scan_skip {next : Place} (h : effect place piece = .skip next) :
    scan place field done (piece :: rest) = scan next field done rest := by
  rw [scan, h]

theorem scan_keep {next : Place} (h : effect place piece = .keep next) :
    scan place field done (piece :: rest) = scan next (piece :: field) done rest := by
  rw [scan, h]

theorem effect_quoted (h : piece ≠ .char '\x22') : effect .quoted piece = .keep .quoted := by
  unfold effect
  split
  all_goals simp_all

theorem effect_plain (hpiece : ¬IsSeparator piece) (hplace : place ≠ .quoted)
    (hplace' : place ≠ .quote) (hquote : place ≠ .plain → piece ≠ .char '\x22') :
    effect place piece = .keep .plain := by
  unfold effect
  split
  all_goals simp_all [IsSeparator]

/-- A comma ends every field but one between quotes. -/
theorem scan_comma (h : place ≠ .quoted) :
    scan place field done (.char ',' :: rest) = scan .field [] (field.reverse :: done) rest := by
  cases place with
  | quoted => exact absurd rfl h
  | record => rfl
  | field => rfl
  | plain => rfl
  | quote => rfl

theorem effect_lineEnd {c : Char} (h : c = '\n' ∨ c = '\r') (hquoted : place ≠ .quoted)
    (hrecord : place ≠ .record) : effect place (.char c) = .endRecord := by
  unfold effect
  split
  all_goals simp_all

/-- A line end ends the record that is being read. -/
theorem scan_lineEnd {lineEnd : List Piece} (h : lineEnd ∈ lineEnds) (hquoted : place ≠ .quoted)
    (hrecord : place ≠ .record) :
    scan place field done (lineEnd ++ rest) =
      (field.reverse :: done).reverse :: scan .record [] [] rest := by
  have hlf := effect_lineEnd (.inl rfl) hquoted hrecord
  have hcr := effect_lineEnd (.inr rfl) hquoted hrecord
  simp only [lineEnds, List.mem_cons, List.not_mem_nil, or_false] at h
  rcases h with rfl | rfl | rfl
  · rw [List.singleton_append, scan, hlf]
  · -- The line feed after a carriage return is an empty line of its own.
    rw [List.cons_append, scan, hcr]
    rfl
  · rw [List.singleton_append, scan, hcr]

/-- So does the end of the text. -/
theorem scan_nil (h : place ≠ .record) :
    scan place field done [] = [(field.reverse :: done).reverse] :=
  if_neg h

/-- Empty lines are skipped. -/
theorem scan_emptyLine {lineEnd : List Piece} (h : lineEnd ∈ lineEnds) :
    scan .record field done (lineEnd ++ rest) = scan .record field done rest := by
  simp only [lineEnds, List.mem_cons, List.not_mem_nil, or_false] at h
  rcases h with rfl | rfl | rfl
  · rfl
  · rfl
  · rfl

/-! ### Entries and records are read -/

/-- Pieces without a separator belong to a field without quotes. -/
theorem scan_plain {entry : Entry} (h : ∀ piece ∈ entry, ¬IsSeparator piece) :
    scan .plain field done (entry ++ rest) = scan .plain (entry.reverse ++ field) done rest := by
  induction entry generalizing field with
  | nil => rfl
  | cons piece entry ih =>
    obtain ⟨hpiece, hentry⟩ := List.forall_mem_cons.1 h
    have hkeep : effect .plain piece = .keep .plain :=
      effect_plain hpiece nofun nofun (absurd rfl)
    rw [List.cons_append, scan_keep hkeep, ih hentry, List.reverse_cons, List.append_assoc]
    rfl

/-- Between quotes all pieces belong to the field. -/
theorem scan_inQuotes (entry : Entry) :
    scan .quoted field done (entry.flatMap inQuotes ++ rest) =
      scan .quoted (entry.reverse ++ field) done rest := by
  induction entry generalizing field with
  | nil => rfl
  | cons piece entry ih =>
    rw [List.flatMap_cons, List.append_assoc, List.reverse_cons, List.append_assoc]
    by_cases hquote : piece = .char '\x22'
    · rw [inQuotes, if_pos hquote, hquote]
      exact ih
    · rw [inQuotes, if_neg hquote, List.singleton_append, scan_keep (effect_quoted hquote)]
      exact ih

/-- **An entry is read as it is.** Only if there is nothing to read, the reader is still before a
record. -/
theorem scan_entry {entry : Entry} {text : List Piece} (h : WritesEntry entry text)
    (hplace : place = .record ∨ place = .field) :
    ∃ next, next ≠ .quoted ∧ (next = .record → place = .record ∧ text = []) ∧
      ∀ done rest, scan place [] done (text ++ rest) = scan next entry.reverse done rest := by
  cases h with
  | plain hplain =>
    obtain ⟨hentry, hquote⟩ := hplain
    cases entry with
    | nil =>
      refine ⟨place, ?_, fun hrecord ↦ ⟨hrecord, rfl⟩, fun _ _ ↦ rfl⟩
      rcases hplace with rfl | rfl
      · exact nofun
      · exact nofun
    | cons piece entry =>
      obtain ⟨hpiece, hentry⟩ := List.forall_mem_cons.1 hentry
      have hkeep : effect place piece = .keep .plain := by
        have hpiece' : piece ≠ .char '\x22' := fun heq ↦ hquote (congrArg some heq)
        rcases hplace with rfl | rfl
        · exact effect_plain hpiece nofun nofun fun _ ↦ hpiece'
        · exact effect_plain hpiece nofun nofun fun _ ↦ hpiece'
      refine ⟨.plain, nofun, nofun, fun done rest ↦ ?_⟩
      rw [List.cons_append, scan_keep hkeep, scan_plain hentry, List.reverse_cons]
  | quoted =>
    have hopen : effect place (.char '\x22') = .skip .quoted := by
      rcases hplace with rfl | rfl
      · rfl
      · rfl
    refine ⟨.quote, nofun, nofun, fun done rest ↦ ?_⟩
    rw [List.append_assoc, List.cons_append, scan_skip hopen, scan_inQuotes, List.append_nil]
    rfl

/-- **A record is read up to its last field**, which what follows the record ends. -/
theorem scan_record {record : List Entry} {text : List Piece} (h : WritesRecord record text)
    (hplace : place = .record ∧ text ≠ [] ∨ place = .field) (done : List Entry) :
    ∃ next last before, next ≠ .quoted ∧ next ≠ .record ∧
      (last.reverse :: before).reverse = done.reverse ++ record ∧
        ∀ rest, scan place [] done (text ++ rest) = scan next last before rest := by
  induction h generalizing place done with
  | @last entry text hentry =>
    obtain ⟨next, hquoted, hrecord, hscan⟩ := scan_entry hentry (hplace.imp_left And.left)
    refine ⟨next, entry.reverse, done, hquoted, fun heq ↦ ?_, ?_, hscan done⟩
    · obtain ⟨rfl, rfl⟩ := hrecord heq
      simp at hplace
    · rw [List.reverse_reverse, List.reverse_cons]
  | @cons entry text record rest hentry _ ih =>
    obtain ⟨next, hquoted, -, hscan⟩ := scan_entry hentry (hplace.imp_left And.left)
    obtain ⟨place', last, before, hquoted', hrecord', hwhole, hscan'⟩ :=
      ih (.inr rfl) (entry :: done)
    refine ⟨place', last, before, hquoted', hrecord', ?_, fun later ↦ ?_⟩
    · rw [hwhole, List.reverse_cons, List.append_assoc]
      rfl
    · rw [List.append_assoc, hscan, List.cons_append, scan_comma hquoted, List.reverse_reverse]
      exact hscan' later

/-- **Records are read from each of their texts.** -/
theorem scan_of_writes {written : List (List Entry)} {text : List Piece} (h : Writes written text) :
    scan .record [] [] text = written := by
  induction h with
  | nil => rfl
  | emptyLine hlineEnd _ ih => rw [scan_emptyLine hlineEnd, ih]
  | @last record text hrecord hne =>
    obtain ⟨next, last, before, -, hnext, hwhole, hscan⟩ := scan_record hrecord (.inl ⟨rfl, hne⟩) []
    rw [← List.append_nil text, hscan, scan_nil hnext, hwhole]
    rfl
  | line hrecord hne hlineEnd _ ih =>
    obtain ⟨next, last, before, hquoted, hnext, hwhole, hscan⟩ :=
      scan_record hrecord (.inl ⟨rfl, hne⟩) []
    rw [List.append_assoc, hscan, scan_lineEnd hlineEnd hquoted hnext, hwhole, ih]
    rfl

/-- **The records of a content are had back** from each way to write them, with a mark of the
encoding before them or without. -/
theorem records_of_writes {written : List (List Entry)} {content : List Piece}
    (h : Writes written (Text.dropMark content)) : records content = written :=
  scan_of_writes h

end DailyBars.SessionFile
