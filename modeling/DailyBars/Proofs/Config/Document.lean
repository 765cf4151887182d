import DailyBars.Config.Document
import DailyBars.Proofs.Day.Reading
import DailyBars.Proofs.Toml.Document
import DailyBars.Proofs.Toml.Values
import Mathlib

/-!
# Configurations read back

The text of a configuration reads back as the same configuration
(`Config.written_and_read_back`): whatever characters its texts have, with or without a file of
sessions, whichever its days are. The text has three lines, a blank line, the header of the calendar
and two or three lines more. Each line assigns a value that reads back at the end of its line, so
the entries of the document are the values that were written, and these say what the configuration
is.

What has a written form and what is accepted are two things. A threshold beyond 64 bits has no
written form; **a configuration with a fault has one, and is refused when it is read**
(`Config.ofText_of_toText`).
-/

namespace DailyBars

open Toml

theorem Config.isLine_textLine (key text : String) :
    IsLine (textLine key text) (.assign [] key (.text text)) := by
  obtain ⟨first, later, heq, hsolid, -⟩ := (isValue_stringText text).exists_solid
  exact isLine_assignText key ⟨first, later, heq, hsolid⟩ fun rest ↦
    (isValue_stringText text).reads _ (noQuote_cons (by decide) (by decide) rest)

theorem Behavior.ofValue?_name (behavior : Behavior) :
    ofValue? (.text behavior.name) = some behavior := by
  cases behavior <;> rfl

namespace CalendarConfig

/-- The days as values. -/
def dayValues (calendar : CalendarConfig) : List Value :=
  calendar.holidays.map fun day ↦ .text day.text

/-- The entries of a calendar's table. -/
def values (calendar : CalendarConfig) : List (String × Value) :=
  ("name", .text calendar.name) :: ("holidays", .array calendar.dayValues) ::
    calendar.sessionsFile.toList.map fun file ↦ ("sessions_file", .text file)

theorem daysOfValue?_dayValues (calendar : CalendarConfig) :
    daysOfValue? (.array calendar.dayValues) = some calendar.holidays := by
  show calendar.dayValues.mapM (fun item ↦ item.text?.bind Day.readSpaced?) = _
  rw [dayValues]
  induction calendar.holidays with
  | nil => rfl
  | cons day days ih =>
    rw [List.map_cons, List.mapM_cons, ih]
    show (Day.readSpaced? day.text).bind _ = _
    rw [Day.readSpaced?_text]
    rfl

theorem ofValue?_values (calendar : CalendarConfig) :
    ofValue? (.table calendar.values) = some calendar := by
  have hdays := daysOfValue?_dayValues calendar
  obtain ⟨name, holidays, sessionsFile⟩ := calendar
  cases sessionsFile with
  | none => simp [ofValue?, values, field?, entry?, hdays, Value.text?]
  | some file => simp [ofValue?, values, field?, entry?, hdays, Value.text?]

/-- The lines of a calendar's table with what they say. -/
def lines (calendar : CalendarConfig) : List (List Char × Statement) :=
  (Config.textLine "name" calendar.name, .assign [] "name" (.text calendar.name)) ::
    (assignText "holidays" (arrayText (calendar.holidays.map fun day ↦ stringText day.text.toList)),
      .assign [] "holidays" (.array calendar.dayValues)) ::
    calendar.sessionsFile.toList.map fun file ↦
      (Config.textLine "sessions_file" file, .assign [] "sessions_file" (.text file))

theorem isLine_of_mem_lines (calendar : CalendarConfig) :
    ∀ line ∈ calendar.lines, IsLine line.1 line.2 := by
  have hdays : List.Forall₂ IsValue
      (calendar.holidays.map fun day ↦ stringText day.text.toList) calendar.dayValues := by
    rw [dayValues, List.forall₂_map_left_iff, List.forall₂_map_right_iff, List.forall₂_same]
    exact fun day _ ↦ isValue_stringText day.text
  refine List.forall_mem_cons.2 ⟨Config.isLine_textLine "name" _, ?_⟩
  refine List.forall_mem_cons.2 ⟨?_, ?_⟩
  · exact isLine_assignText "holidays" (exists_solid_arrayText _) fun rest ↦
      value_arrayText hdays _ _
  · intro line hline
    obtain ⟨file, -, rfl⟩ := List.mem_map.1 hline
    exact Config.isLine_textLine "sessions_file" file

theorem flatMap_lines (calendar : CalendarConfig) :
    calendar.lines.flatMap (·.1) = Config.calendarLines calendar := by
  obtain ⟨name, holidays, sessionsFile⟩ := calendar
  cases sessionsFile with
  | none => simp [lines, Config.calendarLines]
  | some file => simp [lines, Config.calendarLines]

theorem map_lines (calendar : CalendarConfig) :
    calendar.lines.map (·.2) = assignments calendar.values := by
  rw [lines, values, assignments, List.map_cons, List.map_cons, List.map_map, List.map_cons,
    List.map_cons, List.map_map]
  rfl

theorem nodup_values (calendar : CalendarConfig) : (calendar.values.map (·.1)).Nodup := by
  obtain ⟨name, holidays, sessionsFile⟩ := calendar
  cases sessionsFile with
  | none => simp [values]
  | some file => simp [values]

end CalendarConfig

namespace Config

/-- The entries of a configuration before its calendar. -/
def values (config : Config) (threshold : Int64) : List (String × Value) :=
  [("database", .text config.database), ("read_all_threshold", .integer threshold),
    ("invalid_data_behavior", .text config.behavior.name)]

/-- The lines of a configuration before its calendar, with what they say. -/
def lines (config : Config) (threshold : Int64) : List (List Char × Statement) :=
  [(textLine "database" config.database, .assign [] "database" (.text config.database)),
    (assignText "read_all_threshold" (integerText threshold),
      .assign [] "read_all_threshold" (.integer threshold)),
    (textLine "invalid_data_behavior" config.behavior.name,
      .assign [] "invalid_data_behavior" (.text config.behavior.name))]

theorem isLine_of_mem_lines (config : Config) (threshold : Int64) :
    ∀ line ∈ config.lines threshold, IsLine line.1 line.2 := by
  simp only [lines, List.forall_mem_cons, List.not_mem_nil, false_implies, implies_true, and_true]
  exact ⟨isLine_textLine _ _, isLine_assignText_integerText _ _, isLine_textLine _ _⟩

/-- The lines of the calendar with its header. -/
def tableLines (config : Config) : List (List Char × Statement) :=
  (headerText "calendar", .table [] "calendar") :: config.calendar.lines

theorem isLine_of_mem_tableLines (config : Config) :
    ∀ line ∈ config.tableLines, IsLine line.1 line.2 :=
  List.forall_mem_cons.2 ⟨isLine_headerText "calendar", config.calendar.isLine_of_mem_lines⟩

/-- The text is unfolded as a function of all configurations: whether a given threshold is below
`2 ^ 63` would be found out by counting down. -/
theorem toText_eq_elim : toText = fun config ↦
    (Text.int64? config.readAllThreshold).elim (.error .unwritable) fun threshold ↦
      .ok <| String.ofList <|
        textLine "database" config.database ++
          assignText "read_all_threshold" (integerText threshold) ++
          textLine "invalid_data_behavior" config.behavior.name ++
          ['\n'] ++ headerText "calendar" ++ calendarLines config.calendar := by
  delta toText
  funext config
  generalize Text.int64? config.readAllThreshold = word
  cases word with
  | none => rfl
  | some threshold => rfl

theorem toText_of_toInt_eq {config : Config} {threshold : Int64}
    (h : threshold.toInt = config.readAllThreshold) :
    config.toText = .ok (String.ofList ((config.lines threshold).flatMap (·.1) ++
      '\n' :: config.tableLines.flatMap (·.1))) := by
  rw [toText_eq_elim]
  dsimp only
  rw [Text.int64?_eq_some_iff.2 h, Option.elim_some, tableLines, List.flatMap_cons,
    CalendarConfig.flatMap_lines, lines, List.flatMap_cons, List.flatMap_cons, List.flatMap_cons,
    List.flatMap_nil, List.append_nil]
  simp only [List.append_assoc, List.cons_append, List.nil_append]

theorem toText_of_le {config : Config} (h : 2 ^ 63 ≤ config.readAllThreshold) :
    config.toText = .error .unwritable := by
  have hword : Text.int64? config.readAllThreshold = none := by
    rw [Text.int64?, if_neg (by omega)]
  rw [toText_eq_elim]
  dsimp only
  rw [hword, Option.elim_none]

theorem ofText?_lines (config : Config) (threshold : Int64) :
    Toml.ofText? (String.ofList ((config.lines threshold).flatMap (·.1) ++
      '\n' :: config.tableLines.flatMap (·.1))) =
      some (config.values threshold ++ [("calendar", .table config.calendar.values)]) := by
  have hstatements : (config.lines threshold).map (·.2) ++ config.tableLines.map (·.2) =
      assignments (config.values threshold) ++
        .table [] "calendar" :: assignments config.calendar.values := by
    rw [tableLines, List.map_cons, CalendarConfig.map_lines]
    rfl
  obtain ⟨text, htext⟩ : ∃ text, text = (config.lines threshold).flatMap (·.1) ++
      '\n' :: config.tableLines.flatMap (·.1) := ⟨_, rfl⟩
  have hfirst := length_le_of_isLine (config.isLine_of_mem_lines threshold)
  have hsecond := length_le_of_isLine config.isLine_of_mem_tableLines
  -- There are more steps than lines, as no line is empty.
  obtain ⟨steps, hsteps, hmore⟩ : ∃ steps,
      text.length + 1 = (config.lines threshold).length + (steps + 1) ∧
        config.tableLines.length < steps + 1 := by
    refine ⟨text.length - (config.lines threshold).length, ?_, ?_⟩
    all_goals
      simp only [htext, List.length_append, List.length_cons]
      omega
  -- The text begins with a letter, so it has no mark of its encoding to leave out.
  obtain ⟨rest, hrest⟩ : ∃ rest, text = 'd' :: rest := ⟨_, htext⟩
  rw [Toml.ofText?, String.toList_ofList, ← htext, hrest]
  show (statements (('d' :: rest).length + 1) ('d' :: rest) >>= ofStatements?) = _
  rw [← hrest, hsteps, htext, statements_append (config.isLine_of_mem_lines threshold),
    statements_newline, statements_flatMap config.isLine_of_mem_tableLines hmore, Option.map_some,
    hstatements]
  refine ofStatements?_table ?_ ?_ config.calendar.nodup_values
  · simp [values]
  · simp [values]

theorem ofEntries?_values {config : Config} {threshold : Int64}
    (h : threshold.toInt = config.readAllThreshold) :
    ofEntries? (config.values threshold ++ [("calendar", .table config.calendar.values)]) =
      some config := by
  have hthreshold : thresholdOfValue? (.integer threshold) = some config.readAllThreshold := by
    show (if threshold < 0 then none else some threshold.toInt.toNat) = _
    rw [h, Int.toNat_natCast, if_neg]
    rw [Int64.lt_iff_toInt_lt, h]
    exact Int.not_lt.2 (Int.natCast_nonneg _)
  have hbehavior := config.behavior.ofValue?_name
  have hcalendar := config.calendar.ofValue?_values
  simp [ofEntries?, values, field?, entry?, hthreshold, hbehavior, hcalendar, Value.text?]

/-- **What is read from the text of a configuration** is this configuration, unless it has a
fault. -/
theorem ofText_of_toText {config : Config} (h : config.readAllThreshold < 2 ^ 63) :
    ∃ text, config.toText = .ok text ∧ ofText text =
      config.fault?.elim (.ok config) fun fault ↦ .error (.invalid fault) := by
  have hthreshold : (Int64.ofInt config.readAllThreshold).toInt = config.readAllThreshold :=
    Int64.toInt_ofInt_of_le (by omega) (by omega)
  refine ⟨_, toText_of_toInt_eq hthreshold, ?_⟩
  rw [ofText, ofText?_lines, Option.bind_some, ofEntries?_values hthreshold]
  dsimp only
  cases config.fault? with
  | none => rfl
  | some fault => rfl

/-- **Every configuration without a fault is restored from its text**, if its threshold fits 64 bits
with a sign; with a greater threshold a configuration has no text. -/
theorem written_and_read_back (config : Config) :
    (config.fault? = none → config.readAllThreshold < 2 ^ 63 →
      ∃ text, config.toText = .ok text ∧ ofText text = .ok config) ∧
    (2 ^ 63 ≤ config.readAllThreshold → config.toText = .error .unwritable) := by
  refine ⟨fun hfault hthreshold ↦ ?_, toText_of_le⟩
  obtain ⟨text, hwritten, hread⟩ := ofText_of_toText hthreshold
  rw [hfault, Option.elim_none] at hread
  exact ⟨text, hwritten, hread⟩

namespace Sample

/-- A configuration with texts of all forms: one that begins with a line feed, one with quotes of
both kinds in a row, and one with a control character. The days are out of order. -/
def odd : Config where
  database := "\nbars\\\t"
  readAllThreshold := 2 ^ 63 - 1
  behavior := .raise
  calendar := {
    name := "\x22\x22\x22\x27\x27\x27"
    holidays := [Day.greatest, Day.least, Day.epoch, Day.least]
    sessionsFile := some "\x7f\n\x22" }

end Sample

theorem odd_written_and_read_back :
    (∃ text, Sample.odd.toText = .ok text ∧ ofText text = .ok Sample.odd) ∧
      toText { Sample.odd with readAllThreshold := 2 ^ 63 } = .error .unwritable :=
  ⟨(written_and_read_back Sample.odd).1 (by decide) (by decide),
    (written_and_read_back { Sample.odd with readAllThreshold := 2 ^ 63 }).2 le_rfl⟩

end Config

end DailyBars
