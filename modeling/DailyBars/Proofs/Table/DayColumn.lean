import DailyBars.Proofs.Day.Moment
import DailyBars.Proofs.Table.Outcomes
import Mathlib

/-!
# The representations of a day column

The day column of a table may hold dates, ticks in one of three units, or texts of several forms
mixed from row to row. What becomes of the table depends on the days in UTC alone
(`Table.rowBars_withDays`), and every representation of the same times has the same days
(`ColumnData.Shows.days_eq`). **So the bars of a table are the same whichever is used**
(`Table.bars_of_shown_times`).

The day column is found by names that no field of a bar has, so nothing else in the table changes
with it.
-/

namespace DailyBars

/-! ### Representations -/

/-- A text of a time with blanks around it. -/
def Moment.IsEntry (moment : Moment) (entry : String) : Prop :=
  ∃ before text after, entry = String.ofList (before ++ text ++ after) ∧ moment.HasText text ∧
    (∀ c ∈ before, Text.isBlank c = true) ∧ ∀ c ∈ after, Text.isBlank c = true

/-- A column shows times: as their days in UTC, as ticks, which leap seconds have none of, or as
texts, each in a form of its own. -/
inductive ColumnData.Shows (moments : List Moment) : ColumnData → Prop
  | date : Shows moments (.date (moments.map fun moment ↦ some moment.day.number))
  | instant (unit : Day.TickUnit) (h : ∀ moment ∈ moments, moment.clock.second ≤ 59) :
      Shows moments (.instant unit (moments.map fun moment ↦ some (moment.ticks unit)))
  | text {entries : List String}
      (h : List.Forall₂ (fun entry moment ↦ moment.IsEntry entry) entries moments) :
      Shows moments (.text (entries.map some))

theorem Table.readDays_eq_ok {α : Type} {asset : AssetId} {fault : α → IndexFault}
    {read : α → Option Day} {entries : List α} {days : List Day}
    (h : List.Forall₂ (fun entry day ↦ read entry = some day) entries days) :
    Table.readDays asset fault read (entries.map some) = .ok days := by
  refine Result.mapM_zipIdx_eq_ok (List.forall₂_map_left_iff.2 (h.imp fun entry day hday i ↦ ?_)) 0
  simp only [hday]

/-- **All representations of the same times have the same days.** -/
theorem ColumnData.Shows.days_eq {moments : List Moment} {data : ColumnData}
    (h : data.Shows moments) (asset : AssetId) :
    Table.days asset data = .ok (moments.map Moment.day) := by
  -- A date and a tick are computed from the time, a text is only known to be one of its texts.
  have hcomputed : ∀ {fault : Int → IndexFault} {read : Int → Option Day} {entry : Moment → Int},
      (∀ moment ∈ moments, read (entry moment) = some moment.day) →
      Table.readDays asset fault read (moments.map fun moment ↦ some (entry moment)) =
        .ok (moments.map Moment.day) := by
    intro fault read entry hread
    have hentries : (moments.map entry).map some = moments.map fun moment ↦ some (entry moment) :=
      List.map_map
    rw [← hentries]
    refine Table.readDays_eq_ok ?_
    rw [List.forall₂_map_left_iff, List.forall₂_map_right_iff]
    exact List.forall₂_same.2 hread
  cases h with
  | date => exact hcomputed fun moment _ ↦ Day.ofNumber?_number moment.day
  | instant unit h =>
    exact hcomputed fun moment hmoment ↦ Moment.ofTicks?_eq (h moment hmoment) unit
  | text h =>
    refine Table.readDays_eq_ok (List.forall₂_map_right_iff.2 (h.imp ?_))
    rintro entry moment ⟨before, text, after, rfl, htext, hbefore, hafter⟩
    exact Moment.ofText?_eq htext hbefore hafter

/-- A column that shows times has one entry for each. -/
theorem ColumnData.Shows.height_eq {moments : List Moment} {data : ColumnData}
    (h : data.Shows moments) : data.height = moments.length := by
  cases h with
  | date => exact List.length_map _
  | instant => exact List.length_map _
  | text h => exact (List.length_map _).trans h.length_eq

/-! ### Tables with other days -/

namespace Table

variable {table : Table} {asset : AssetId} {data other : ColumnData}

/-- A column with other data, if it is the day column. -/
def replaceDays (table : Table) (data : ColumnData) (column : Column) : Column :=
  if table.dayColumn?.map Column.name = some column.name then { column with data := data }
  else column

theorem name_replaceDays (table : Table) (data : ColumnData) (column : Column) :
    (table.replaceDays data column).name = column.name := by
  rw [replaceDays]
  split
  · rfl
  · rfl

theorem map_name_replaceDays (table : Table) (data : ColumnData) (columns : List Column) :
    (columns.map (table.replaceDays data)).map Column.name = columns.map Column.name := by
  rw [List.map_map]
  exact List.map_congr_left fun column _ ↦ table.name_replaceDays data column

/-- The table with other data in its day column. -/
def withDays (table : Table) (data : ColumnData) (hdata : data.height = table.height) : Table where
  columns := table.columns.map (table.replaceDays data)
  height := table.height
  isRectangular column hcolumn := by
    obtain ⟨old, hold, rfl⟩ := List.mem_map.1 hcolumn
    rw [replaceDays]
    split
    · exact hdata
    · exact table.isRectangular old hold
  distinctNames := by
    rw [map_name_replaceDays]
    exact table.distinctNames

variable (hdata : data.height = table.height) (hother : other.height = table.height)

theorem find?_withDays (name : String) :
    (table.withDays data hdata).find? name = (table.find? name).map (table.replaceDays data) := by
  rw [find?, withDays, List.find?_map]
  refine congrArg (fun p ↦ (table.columns.find? p).map _) (funext fun column ↦ ?_)
  rw [Function.comp_apply, name_replaceDays]

theorem dayColumn?_withDays : (table.withDays data hdata).dayColumn? =
    table.dayColumn?.map fun column ↦ { column with data := data } := by
  have hfind : (table.withDays data hdata).dayColumn? =
      table.dayColumn?.map (table.replaceDays data) := by
    rw [dayColumn?, dayColumn?, List.map_findSome?]
    exact congrArg (List.findSome? · dayNames) (funext (find?_withDays hdata))
  rw [hfind]
  cases hday : table.dayColumn? with
  | none => rfl
  | some column =>
    rw [Option.map_some, Option.map_some, replaceDays, if_pos (by rw [hday, Option.map_some])]

theorem lower_name_of_find? {name : String} {column : Column} (h : table.find? name = some column) :
    Text.lower column.name = Text.lower name := by
  rw [find?] at h
  have hsame := List.find?_some h
  exact Text.sameLetters_iff.1 hsame

/-- **The columns of the fields stay as they are**: no field has a name of a day column. -/
theorem find?_withDays_field (field : Field) :
    (table.withDays data hdata).find? field.name = table.find? field.name := by
  rw [find?_withDays]
  cases hcolumn : table.find? field.name with
  | none => rfl
  | some column =>
    rw [Option.map_some, replaceDays, if_neg fun hname ↦ ?_]
    obtain ⟨dayColumn, hday, hsame⟩ := Option.map_eq_some_iff.1 hname
    obtain ⟨name, hmem, hfound⟩ := List.exists_of_findSome?_eq_some hday
    have hnames : ∀ name ∈ dayNames, ∀ field ∈ Field.all,
        Text.lower field.name ≠ Text.lower name := by decide +kernel
    refine hnames name hmem field (Field.mem_all field) ?_
    rw [← lower_name_of_find? hcolumn, ← lower_name_of_find? hfound, hsame]

theorem missingColumns_withDays :
    (table.withDays data hdata).missingColumns = table.missingColumns := by
  have hfields : (fun name ↦ ((table.withDays data hdata).find? name).isNone) =
      fun name ↦ (table.find? name).isNone := by
    funext name
    rw [find?_withDays, Option.isNone_map]
  rw [missingColumns, missingColumns, dayColumn?_withDays, Option.isNone_map, hfields]

theorem fieldEntries_withDays (field : Field) {α : Type} (conversion : Conversion α) :
    (table.withDays data hdata).fieldEntries asset field conversion =
      table.fieldEntries asset field conversion := by
  rw [fieldEntries, fieldEntries, fieldColumn, find?_withDays_field, ← fieldColumn]

/-- **Of a day column only its days matter.** -/
theorem rowBars_withDays (h : days asset data = days asset other) :
    (table.withDays data hdata).rowBars asset = (table.withDays other hother).rowBars asset := by
  rw [rowBars, rowBars, missingColumns_withDays, missingColumns_withDays, dayColumn?_withDays,
    dayColumn?_withDays]
  simp only [prices, volumes, fieldEntries_withDays]
  cases table.dayColumn? with
  | none => rfl
  | some column =>
    simp only [Option.map_some, h]

theorem bars_withDays (h : days asset data = days asset other) :
    (table.withDays data hdata).bars asset = (table.withDays other hother).bars asset := by
  rw [bars, bars, rowBars_withDays hdata hother h]

/-- **The bars of a table do not depend on how its times are shown**: whatever the day column holds,
the result is the same, and the days of the bars are those of the times in UTC. -/
theorem bars_of_shown_times (table : Table) (asset : AssetId) {moments : List Moment}
    (hheight : moments.length = table.height) {data other : ColumnData}
    (hdata : data.Shows moments) (hother : other.Shows moments) :
    (table.withDays data (hdata.height_eq.trans hheight)).bars asset =
        (table.withDays other (hother.height_eq.trans hheight)).bars asset ∧
      ∀ bars, (table.withDays data (hdata.height_eq.trans hheight)).bars asset = .ok bars →
        (bars.map Bar.day).Perm (moments.map Moment.day) := by
  refine ⟨bars_withDays _ _ ((hdata.days_eq asset).trans (hother.days_eq asset).symm),
    fun bars hbars ↦ ?_⟩
  obtain ⟨unsorted, hunsorted, hperm⟩ := perm_rowBars hbars
  obtain ⟨columns, hcolumns, rfl⟩ := rowBars_eq_ok_iff.1 hunsorted
  obtain ⟨column, hcolumn, hdays⟩ := hcolumns.days
  rw [dayColumn?_withDays] at hcolumn
  obtain ⟨old, -, rfl⟩ := Option.map_eq_some_iff.1 hcolumn
  have hfound : columns.days = moments.map Moment.day :=
    Except.ok.inj (hdays.symm.trans (hdata.days_eq asset))
  rw [← hfound, ← hcolumns.map_day]
  exact hperm.map Bar.day

namespace Sample

/-- Half a second after half past eleven in the evening, on the last day of 1969. -/
def lastEvening : Moment :=
  ⟨⟨-1, by decide⟩, ⟨23, 30, 0, by decide, by decide, by decide⟩, 500000000, by decide⟩

/-- A quarter past midnight, on the first day of 2024. -/
def newYear : Moment :=
  ⟨⟨19723, by decide⟩, ⟨0, 15, 0, by decide, by decide, by decide⟩, 0, by decide⟩

/-- Two rows with nothing but missing entries. -/
def blank : Table where
  columns := [⟨"Time", .untyped 2⟩, ⟨"open", .untyped 2⟩, ⟨"high", .untyped 2⟩, ⟨"low", .untyped 2⟩,
    ⟨"close", .untyped 2⟩, ⟨"volume", .untyped 2⟩]
  height := 2
  isRectangular := by decide
  distinctNames := by decide

/-- The two times in milliseconds. -/
def ticks : ColumnData :=
  .instant .milliseconds [some (-1799500), some 1704068100000]

/-- The two times as texts, the one where it is the new year already and the other where it is the
old one still. -/
def texts : ColumnData :=
  .text [some "\u3000 1970-01-01T05:00:00.5+05:30", some "2023-12-31t19:15:00−05:00\n"]

theorem isEntry_lastEvening : lastEvening.IsEntry "\u3000 1970-01-01T05:00:00.5+05:30" := by
  let clock : Clock := ⟨5, 0, 0, by decide, by decide, by decide⟩
  have htext : lastEvening.HasText (Day.epoch.text.toList ++ 'T' :: (clock.chars ++ (['.', '5'] ++
      '+' :: (Text.padded 2 5 ++ ':' :: Text.padded 2 30)))) :=
    .offsetTime (by decide) (.inl rfl)
      (.digits (List.cons_ne_nil _ _) (List.forall_mem_singleton.2 (by decide)))
      (.east (by decide) (by decide)) (by decide) rfl
  exact ⟨['\u3000', ' '], _, [], by decide +kernel, htext,
    List.forall_mem_cons.2 ⟨by decide, List.forall_mem_singleton.2 (by decide)⟩,
    List.forall_mem_nil _⟩

theorem isEntry_newYear : newYear.IsEntry "2023-12-31t19:15:00−05:00\n" := by
  let date : Day := ⟨19722, by decide⟩
  let clock : Clock := ⟨19, 15, 0, by decide, by decide, by decide⟩
  have htext : newYear.HasText (date.text.toList ++ 't' :: (clock.chars ++ ([] ++
      '−' :: (Text.padded 2 5 ++ ':' :: Text.padded 2 0)))) :=
    .offsetTime (by decide) (.inr (.inl rfl)) .none
      (.west (.inr rfl) (by decide) (by decide)) (by decide) rfl
  exact ⟨[], _, ['\n'], by decide +kernel, htext, List.forall_mem_nil _,
    List.forall_mem_singleton.2 (by decide)⟩

theorem length_times : [lastEvening, newYear].length = blank.height := rfl

theorem shows_ticks : ticks.Shows [lastEvening, newYear] :=
  .instant .milliseconds (by simp [lastEvening, newYear])

theorem shows_texts : texts.Shows [lastEvening, newYear] :=
  .text (.cons isEntry_lastEvening (.cons isEntry_newYear .nil))

/-- The table with the two times in milliseconds. -/
def ofTicks : Table :=
  blank.withDays ticks (shows_ticks.height_eq.trans length_times)

/-- The table with the two times as texts. -/
def ofTexts : Table :=
  blank.withDays texts (shows_texts.height_eq.trans length_times)

theorem converts_ofTicks : ofTicks.Converts ⟨7⟩ ([lastEvening, newYear].map Moment.day) where
  days := by
    have hday : blank.dayColumn? = some ⟨"Time", .untyped 2⟩ := by cbv
    refine ⟨⟨"Time", ticks⟩, ?_, shows_ticks.days_eq ⟨7⟩⟩
    rw [ofTicks, dayColumn?_withDays, hday]
    rfl
  prices := Field.forall_isPrice_iff.2 ⟨⟨_, rfl, rfl⟩, ⟨_, rfl, rfl⟩, ⟨_, rfl, rfl⟩, ⟨_, rfl, rfl⟩⟩
  volumes := ⟨_, rfl, rfl⟩

end Sample

theorem bars_of_times_elsewhere :
    [Sample.lastEvening, Sample.newYear].length = Sample.blank.height ∧
      Sample.ticks.Shows [Sample.lastEvening, Sample.newYear] ∧
      Sample.texts.Shows [Sample.lastEvening, Sample.newYear] ∧
      ∃ bars, Sample.ofTicks.bars ⟨7⟩ = .ok bars ∧ Sample.ofTexts.bars ⟨7⟩ = .ok bars ∧
        (bars.map Bar.day).Perm ([Sample.lastEvening, Sample.newYear].map Moment.day) := by
  obtain ⟨hsame, hdays⟩ := bars_of_shown_times Sample.blank ⟨7⟩ Sample.length_times
    Sample.shows_ticks Sample.shows_texts
  obtain ⟨bars, hbars⟩ := exists_bars_iff.2 ⟨_, Sample.converts_ofTicks, by decide⟩
  exact ⟨Sample.length_times, Sample.shows_ticks, Sample.shows_texts, bars, hbars,
    hsame.symm.trans hbars, hdays bars hbars⟩

end Table

end DailyBars
