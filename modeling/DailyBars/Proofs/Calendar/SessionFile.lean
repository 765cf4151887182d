import DailyBars.Proofs.Calendar.Records
import DailyBars.Proofs.Calendar.Run
import DailyBars.Proofs.Day.Moment
import DailyBars.Proofs.Result
import Mathlib

/-!
# Sessions from a file

Whatever way a session file is written (`SessionFile.Writes`), it is read by the days of its rows
(`SessionFile.rowDay`): their order, repeats, further fields and the blanks around them do not
matter. **If all rows have days, the sessions are these days**; if some have none, the first of them
is named by its number among the rows, which empty lines do not change
(`SessionFile.read_of_writes`).

The header is a record like others, but nothing in it is read: its fields need not be text, and they
count only in that each row has as many.
-/

namespace DailyBars

namespace SessionFile

variable {files : Files} {path : String} {content : List Text.Piece} {header : List Entry}
  {rows : List (List (List Char))} {row : List (List Char)}

/-! ### Rows -/

/-- The day of a row, which is all that is read of it. -/
def rowDay (row : List (List Char)) : Except Day.Fault Day :=
  Day.read (Text.trim (row.headD []))

/-- The first field of a row is the text of a day with blanks around it. -/
def Shows (row : List (List Char)) (day : Day) : Prop :=
  ∃ before after, (∀ c ∈ before, Text.isBlank c = true) ∧ (∀ c ∈ after, Text.isBlank c = true) ∧
    row.headD [] = before ++ day.text.toList ++ after

theorem Shows.rowDay_eq {day : Day} (h : Shows row day) : rowDay row = .ok day := by
  obtain ⟨before, after, hbefore, hafter, hfield⟩ := h
  rw [rowDay, hfield, Text.trim_surrounded (Moment.isTrimmed_day day) hbefore hafter]
  exact Day.readWith_text rfl (fun _ ↦ rfl) day

/-- The fields of a row are text. -/
theorem mapM_wholeText?_pieces (row : List (List Char)) :
    (row.map Text.pieces).mapM Text.wholeText? = some row := by
  rw [Result.mapM_eq_some_iff, List.map_map]
  exact List.map_congr_left fun field _ ↦ Text.wholeText?_pieces field

theorem readDay_pieces (number : Nat) (row : List (List Char)) :
    readDay row.length number (row.map Text.pieces) =
      (rowDay row).mapError (.badDay number (String.ofList (row.headD []))) := by
  rw [readDay, List.length_map, mapM_wholeText?_pieces, rowDay]
  simp only [ne_eq, not_true_eq_false, if_false]
  cases Day.read (Text.trim (row.headD [])) with
  | error fault => rfl
  | ok day => rfl

/-- The rows are counted from one. -/
theorem mapM_readDay {width : Nat} (h : ∀ row ∈ rows, row.length = width) (start : Nat) :
    (((rows.map (·.map Text.pieces)).zipIdx start).mapM fun (record, i) ↦
      readDay width (i + 1) record) =
    (rows.zipIdx start).mapM fun (row, i) ↦
      (rowDay row).mapError (.badDay (i + 1) (String.ofList (row.headD []))) := by
  induction rows generalizing start with
  | nil => rfl
  | cons row rows ih =>
    obtain ⟨rfl, hrows⟩ := List.forall_mem_cons.1 h
    rw [List.map_cons, List.zipIdx_cons, List.zipIdx_cons, List.mapM_cons, List.mapM_cons, ih hrows]
    exact congrArg (· >>= _) (readDay_pieces (start + 1) row)

/-- **All that a session file says is said by its rows**, in whatever way they are written. -/
theorem readDays_of_writes
    (hwrites : Writes (header :: rows.map (·.map Text.pieces)) (Text.dropMark content))
    (hwidth : ∀ row ∈ rows, row.length = header.length) :
    readDays content = rows.zipIdx.mapM fun (row, i) ↦
      (rowDay row).mapError (.badDay (i + 1) (String.ofList (row.headD []))) := by
  rw [readDays, records_of_writes hwrites]
  exact mapM_readDay hwidth 0

/-! ### All rows with days, or a first one without -/

theorem readDays_eq_ok {days : List Day}
    (hwrites : Writes (header :: rows.map (·.map Text.pieces)) (Text.dropMark content))
    (hwidth : ∀ row ∈ rows, row.length = header.length) (hdays : List.Forall₂ Shows rows days) :
    readDays content = .ok days := by
  rw [readDays_of_writes hwrites hwidth]
  refine Result.mapM_zipIdx_eq_ok (hdays.imp fun row day hday i ↦ ?_) 0
  show (rowDay row).mapError _ = .ok day
  rw [hday.rowDay_eq]
  rfl

theorem readDays_eq_error {before after : List (List (List Char))} {fault : Day.Fault}
    (hwrites : Writes (header :: (before ++ row :: after).map (·.map Text.pieces))
      (Text.dropMark content))
    (hwidth : ∀ other ∈ before ++ row :: after, other.length = header.length)
    (hbefore : ∀ other ∈ before, ∃ day, rowDay other = .ok day) (h : rowDay row = .error fault) :
    readDays content =
      .error (.badDay (before.length + 1) (String.ofList (row.headD [])) fault) := by
  rw [readDays_of_writes hwrites hwidth, List.zipIdx_append, List.zipIdx_cons, Nat.zero_add]
  refine Result.mapM_eq_error_of_append (fun entry hentry ↦ ?_) ?_
  · obtain ⟨day, hday⟩ := hbefore entry.1 (List.fst_mem_of_mem_zipIdx hentry)
    refine ⟨day, ?_⟩
    show (rowDay entry.1).mapError _ = .ok day
    rw [hday]
    rfl
  · show (rowDay row).mapError _ = _
    rw [h]
    rfl

/-- **A session file is read as the days of its rows.** The file may be written in any way, with any
fields behind the days, as many as the header has. If the first field of each row is the text of a
day with blanks around it, the sessions are these days in ascending order, once each, and the
calendar of the sessions goes by them. If there is no day to be read from the first field of some
row, the first such row is named by its number, counted from one, and by the text of the field. -/
theorem read_of_writes (hcontent : files.content? path = some content)
    (hwrites : Writes (header :: rows.map (·.map Text.pieces)) (Text.dropMark content))
    (hwidth : ∀ row ∈ rows, row.length = header.length) :
    (∀ days : List Day, List.Forall₂ Shows rows days →
      ∃ sessions : DayList, read files path = .ok sessions ∧
        sessions.toList.Pairwise (· < ·) ∧ (∀ day, day ∈ sessions.toList ↔ day ∈ days) ∧
        ∀ name, (∀ day,
            (Calendar.ofSessions name sessions).isSession day = true ↔ day ∈ days) ∧
          ∀ start stop, (Calendar.ofSessions name sessions).sessionsIn start stop =
            sessions.toList.filter fun day ↦ start ≤ day && day ≤ stop) ∧
    ((∃ row ∈ rows, ∃ fault, rowDay row = .error fault) →
      ∃ before row after fault, rows = before ++ row :: after ∧
        (∀ other ∈ before, ∃ day, rowDay other = .ok day) ∧ rowDay row = .error fault ∧
        read files path = .error (.sessionsFile path
          (.badDay (before.length + 1) (String.ofList (row.headD [])) fault))) := by
  rw [read, hcontent]
  dsimp only
  refine ⟨fun days hdays ↦ ?_, fun hfault ↦ ?_⟩
  · rw [readDays_eq_ok hwrites hwidth hdays]
    have hmem : ∀ day, day ∈ (DayList.ofList days).toList ↔ day ∈ days := fun _ ↦
      DayList.mem_ofList
    refine ⟨.ofList days, rfl, DayList.ascending _, hmem, fun name ↦ ⟨fun day ↦ ?_, ?_⟩⟩
    · exact DayList.contains_iff.trans (hmem day)
    · exact fun _ _ ↦ DayList.toList_between
  · obtain ⟨before, row, after, fault, rfl, hbefore, hrow⟩ := Result.exists_first_error hfault
    refine ⟨before, row, after, fault, rfl, hbefore, hrow, ?_⟩
    rw [readDays_eq_error hwrites hwidth hbefore hrow]

end SessionFile

namespace SessionFile.Sample

/-- Two columns with quotes where they are needed and blanks around days; one line is empty, and the
last one has no end. -/
def text : String :=
  "day,note\r\n\n\"\t2024-01-03\",\"a,\nb\"\n+10000-01-01 ,x\"y\r\n2024-01-03,"

def rows : List (List (List Char)) :=
  [["\t2024-01-03".toList, "a,\nb".toList], ["+10000-01-01 ".toList, "x\"y".toList],
    ["2024-01-03".toList, "".toList]]

/-- One column; the entry of the second row is no day. -/
def badText : String :=
  "day\n2024-01-03\n\n\" Jan\"\n"

def badRows : List (List (List Char)) :=
  [["2024-01-03".toList], [" Jan".toList]]

/-- The file of a text. -/
def files (text : String) : Files :=
  Files.empty.put ["s"] (.file (Text.pieces text.toList))

theorem content?_files (text : String) :
    (files text).content? "s" = some (Text.pieces text.toList) := by
  have hpath : Files.isPath "s" = true := by cbv
  have hparts : Files.parts "s" = ([], ["s"]) := by cbv
  rw [Files.content?, Files.lookup?, Files.locate?, hpath, if_pos rfl, hparts]
  simp [files, Files.walk, Files.isDirectory, Files.node?, Files.isAbove, Files.step, Files.put]

theorem writes_text :
    Writes ([Text.pieces "day".toList, Text.pieces "note".toList] ::
      rows.map (·.map Text.pieces)) (Text.dropMark (Text.pieces text.toList)) := by
  have hwrites : Writes ([Text.pieces "day".toList, Text.pieces "note".toList] ::
      rows.map (·.map Text.pieces)) _ :=
    .line (.cons (.plain (by decide +kernel)) (.last (.plain (by decide +kernel)))) (by simp)
      (List.mem_cons_of_mem _ List.mem_cons_self) <|
    .emptyLine List.mem_cons_self <|
    .line (.cons .quoted (.last .quoted)) (by simp) List.mem_cons_self <|
    .line (.cons (.plain (by decide +kernel)) (.last (.plain (by decide +kernel)))) (by simp)
      (List.mem_cons_of_mem _ List.mem_cons_self) <|
    .last (.cons (.plain (by decide +kernel)) (.last (.plain (by decide +kernel)))) (by simp)
  convert hwrites using 1
  decide +kernel

theorem writes_badText :
    Writes ([Text.pieces "day".toList] :: badRows.map (·.map Text.pieces))
      (Text.dropMark (Text.pieces badText.toList)) := by
  have hwrites : Writes ([Text.pieces "day".toList] :: badRows.map (·.map Text.pieces)) _ :=
    .line (.last (.plain (by decide +kernel))) (by decide +kernel) List.mem_cons_self <|
    .line (.last (.plain (by decide +kernel))) (by decide +kernel) List.mem_cons_self <|
    .emptyLine List.mem_cons_self <|
    .line (.last .quoted) (by simp) List.mem_cons_self .nil
  convert hwrites using 1
  decide +kernel

end SessionFile.Sample

namespace SessionFile

/-- Two days are read from the text, and the second row of the other text is named. -/
theorem read_two_days :
    (∃ sessions : DayList, read (Sample.files Sample.text) "s" = .ok sessions ∧
      sessions.toList.Pairwise (· < ·) ∧
      ∀ day, day ∈ sessions.toList ↔ day = ⟨19725, by decide⟩ ∨ day = ⟨2932897, by decide⟩) ∧
    ∃ fault, read (Sample.files Sample.badText) "s" =
      .error (.sessionsFile "s" (.badDay 2 " Jan" fault)) := by
  constructor
  · have hdays : List.Forall₂ Shows Sample.rows
        [⟨19725, by decide⟩, ⟨2932897, by decide⟩, ⟨19725, by decide⟩] :=
      .cons ⟨['\t'], [], by simp [Text.isBlank], by simp, by decide +kernel⟩ <|
      .cons ⟨[], [' '], by simp, by simp [Text.isBlank], by decide +kernel⟩ <|
      .cons ⟨[], [], by simp, by simp, by decide +kernel⟩ .nil
    obtain ⟨sessions, hread, hascending, hmem, -⟩ :=
      (read_of_writes (Sample.content?_files _) Sample.writes_text (by decide +kernel)).1 _ hdays
    refine ⟨sessions, hread, hascending, fun day ↦ (hmem day).trans ?_⟩
    simp only [List.mem_cons, List.not_mem_nil, or_false]
    tauto
  · have hfault : ∃ row ∈ Sample.badRows, ∃ fault, rowDay row = .error fault :=
      ⟨[" Jan".toList], by decide +kernel, .invalid, by decide +kernel⟩
    obtain ⟨before, row, after, fault, hrows, hbefore, hrow, hread⟩ :=
      (read_of_writes (Sample.content?_files _) Sample.writes_badText (by decide +kernel)).2 hfault
    refine ⟨fault, ?_⟩
    rcases before with _ | ⟨first, _ | ⟨second, before⟩⟩
    · -- The first row has a day.
      obtain ⟨rfl, -⟩ := List.cons.inj hrows
      have hday : rowDay ["2024-01-03".toList] = .ok ⟨19725, by decide⟩ := by decide +kernel
      cases hday.symm.trans hrow
    · obtain ⟨rfl, -⟩ := List.cons.inj (List.cons.inj hrows).2
      exact hread
    · exact absurd (List.cons.inj (List.cons.inj hrows).2).2.symm (by simp)

end SessionFile

end DailyBars
