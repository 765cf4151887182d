import DailyBars.Proofs.Table.Reorder
import Mathlib

/-!
# Tables in another layout

The layout of a table may be changed in three ways (`Table.Rearranges`): its rows or its columns are
put in another order, or other columns stand among those that are taken up. Columns are looked up
by name and the first one counts, so their order matters **where two of them are taken up under one
name**, and only there.

In each case the same columns are found afterwards, with their rows in one and the same order
(`Table.Corresponds`). This is all that the bars of the rows depend on, so they are put in order
with the rows (`Table.Corresponds.rowBars`), and a table that is refused is refused for the same
reason.
-/

namespace DailyBars

namespace Table

variable {asset : AssetId} {order : List Nat}

/-! ### Outcomes that say the same -/

/-- Two outcomes are the same, or both say that the index cannot be used. -/
inductive SameOutcome (asset : AssetId) {α : Type} :
    Except StoreError α → Except StoreError α → Prop where
  | refl (outcome : Except StoreError α) : SameOutcome asset outcome outcome
  | index (fault other : IndexFault) :
    SameOutcome asset (.error (.unsupportedIndex asset fault))
      (.error (.unsupportedIndex asset other))

namespace SameOutcome

variable {α β γ δ : Type}

theorem symm {x y : Except StoreError α} (h : SameOutcome asset x y) : SameOutcome asset y x := by
  cases h with
  | refl => exact .refl _
  | index fault other => exact .index other fault

theorem trans {x y z : Except StoreError α} (hxy : SameOutcome asset x y)
    (hyz : SameOutcome asset y z) : SameOutcome asset x z := by
  cases hxy with
  | refl => exact hyz
  | index fault other =>
    cases hyz with
    | refl => exact .index fault other
    | index _ last => exact .index fault last

/-- One more step after the same outcomes; what the results have to do with each other is what `f`
makes of them. -/
theorem bind {x : Except StoreError α} {y : Except StoreError β} {f : α → β}
    {next : α → Except StoreError γ} {after : β → Except StoreError δ} {g : γ → δ}
    (h : SameOutcome asset (x.map f) y)
    (hnext : ∀ a, x = .ok a → SameOutcome asset ((next a).map g) (after (f a))) :
    SameOutcome asset ((x >>= next).map g) (y >>= after) := by
  cases x with
  | error error =>
    cases h with
    | refl => exact .refl _
    | index fault other => exact .index fault other
  | ok a =>
    cases h with
    | refl => exact hnext a rfl

end SameOutcome

/-! ### Tables in another layout -/

/-- The column with its rows in another order. -/
def reorderColumn (order : List Nat) (column : Column) : Column :=
  ⟨column.name, column.data.reorder order⟩

/-- The table with its rows in another order. -/
def reorder (table : Table) (order : List Nat) (h : order.Perm (List.range table.height)) :
    Table where
  columns := table.columns.map (reorderColumn order)
  height := table.height
  isRectangular column hcolumn := by
    obtain ⟨found, hfound, rfl⟩ := List.mem_map.1 hcolumn
    have hheight := table.isRectangular found hfound
    rw [reorderColumn, ColumnData.height_reorder (hheight.symm ▸ h), hheight]
  distinctNames := by
    rw [List.map_map]
    exact table.distinctNames

/-- The names under which a column is taken up. -/
def acceptedNames : List String :=
  dayNames ++ Field.all.map Field.name

/-- Whether a column is taken up. -/
def isAccepted (column : Column) : Bool :=
  acceptedNames.any fun name ↦ Text.sameLetters column.name name

/-- No two columns are taken up under one name. -/
def HasClearNames (table : Table) : Prop :=
  ∀ name ∈ acceptedNames, ∀ a ∈ table.columns, ∀ b ∈ table.columns,
    Text.sameLetters a.name name = true → Text.sameLetters b.name name = true → a = b

/-- One change of the layout of a table: its rows in another order, its columns in another order,
or other columns among those that are taken up. -/
inductive Rearranges : Table → Table → Prop where
  | rows (table : Table) (order : List Nat) (h : order.Perm (List.range table.height)) :
    Rearranges table (table.reorder order h)
  | columns {table other : Table} (hclear : table.HasClearNames)
    (h : other.columns.Perm table.columns) : Rearranges table other
  | foreign {table other : Table}
    (h : other.columns.filter isAccepted = table.columns.filter isAccepted) :
    Rearranges table other

theorem find?_of_perm {table other : Table} (hclear : table.HasClearNames)
    (h : other.columns.Perm table.columns) {name : String} (hname : name ∈ acceptedNames) :
    other.find? name = table.find? name := by
  cases hfind : table.find? name with
  | none =>
    refine List.find?_eq_none.2 fun column hcolumn ↦ ?_
    exact List.find?_eq_none.1 hfind column (h.mem_iff.1 hcolumn)
  | some column =>
    have hcolumn := List.mem_of_find?_eq_some hfind
    have hsame := List.find?_some hfind
    -- Another column may come first under this name, but there is only the one.
    obtain ⟨found, hfound⟩ := Option.isSome_iff_exists.1
      ((List.find?_isSome (p := fun column : Column ↦ Text.sameLetters column.name name)).2
        ⟨column, h.mem_iff.2 hcolumn, hsame⟩)
    have hfoundSame : Text.sameLetters found.name name = true :=
      List.find?_some (p := fun column : Column ↦ Text.sameLetters column.name name) hfound
    rw [find?, hfound, hclear name hname found (h.mem_iff.1 (List.mem_of_find?_eq_some hfound))
      column hcolumn hfoundSame hsame]

theorem find?_of_filter {table other : Table}
    (h : other.columns.filter isAccepted = table.columns.filter isAccepted) {name : String}
    (hname : name ∈ acceptedNames) : other.find? name = table.find? name := by
  have hkept : ∀ table : Table, table.find? name =
      (table.columns.filter isAccepted).find? fun column ↦ Text.sameLetters column.name name := by
    intro table
    rw [List.find?_filter]
    refine List.find?_congr fun column _ ↦ ?_
    cases hsame : Text.sameLetters column.name name with
    | false => simp
    | true => simpa [isAccepted] using ⟨name, hname, hsame⟩
  rw [hkept, hkept, h]

/-- The columns of a bar are found in both tables, in the other one with their rows in another
order. -/
structure Corresponds (order : List Nat) (table other : Table) : Prop where
  perm : order.Perm (List.range table.height)
  find? : ∀ name ∈ acceptedNames, other.find? name = (table.find? name).map (reorderColumn order)

theorem corresponds_of_find? {table other : Table}
    (h : ∀ name ∈ acceptedNames, other.find? name = table.find? name) :
    Corresponds (List.range table.height) table other where
  perm := .refl _
  find? name hname := by
    rw [h name hname]
    cases hfind : table.find? name with
    | none => rfl
    | some column =>
      rw [Option.map_some, reorderColumn, ← height_of_find? hfind, ColumnData.reorder_range]

/-- **Whatever is changed of the layout, the same columns are found**, with their rows in one and
the same order. -/
theorem Rearranges.exists_corresponds {table other : Table} (h : Rearranges table other) :
    ∃ order, Corresponds order table other := by
  cases h with
  | rows order horder => exact ⟨order, horder, fun name _ ↦ List.find?_map⟩
  | columns hclear hperm =>
    exact ⟨_, corresponds_of_find? fun name hname ↦ find?_of_perm hclear hperm hname⟩
  | foreign hkept =>
    exact ⟨_, corresponds_of_find? fun name hname ↦ find?_of_filter hkept hname⟩

namespace Corresponds

variable {table other : Table}

theorem dayColumn? (h : Corresponds order table other) :
    other.dayColumn? = table.dayColumn?.map (reorderColumn order) := by
  have hnames : ∀ names : List String, (∀ name ∈ names, name ∈ acceptedNames) →
      names.findSome? other.find? = (names.findSome? table.find?).map (reorderColumn order) := by
    intro names hnames
    induction names with
    | nil => rfl
    | cons name names ih =>
      obtain ⟨hname, hlater⟩ := List.forall_mem_cons.1 hnames
      rw [List.findSome?_cons, List.findSome?_cons, h.find? name hname]
      cases table.find? name with
      | none => exact ih hlater
      | some column => rfl
  exact hnames dayNames fun name hname ↦ List.mem_append_left _ hname

theorem missingColumns (h : Corresponds order table other) :
    other.missingColumns = table.missingColumns := by
  have hfields : (Field.all.map Field.name).filter (fun name ↦ (other.find? name).isNone) =
      (Field.all.map Field.name).filter fun name ↦ (table.find? name).isNone := by
    refine List.filter_congr fun name hname ↦ ?_
    rw [h.find? name (List.mem_append_right _ hname), Option.isNone_map]
  rw [Table.missingColumns, Table.missingColumns, h.dayColumn?, Option.isNone_map, hfields]

theorem fieldColumn (h : Corresponds order table other) (field : Field) :
    other.fieldColumn asset field = (table.fieldColumn asset field).map (reorderColumn order) := by
  have hname : field.name ∈ acceptedNames :=
    List.mem_append_right _ (List.mem_map_of_mem field.mem_all)
  rw [Table.fieldColumn, Table.fieldColumn, h.find? field.name hname]
  cases table.find? field.name with
  | none => rfl
  | some column => rfl

/-- The order is one of the rows of every column of a bar. -/
theorem perm_of_fieldColumn (h : Corresponds order table other) {field : Field} {column : Column}
    (hcolumn : table.fieldColumn asset field = .ok column) :
    order.Perm (List.range column.data.height) := by
  rw [height_of_find? (fieldColumn_eq_ok hcolumn)]
  exact h.perm

theorem fieldEntries (h : Corresponds order table other) (field : Field) {α : Type}
    (conversion : Conversion α) :
    other.fieldEntries asset field conversion =
      (table.fieldEntries asset field conversion).map (pick order) := by
  rw [Table.fieldEntries, Table.fieldEntries, h.fieldColumn field]
  cases hcolumn : table.fieldColumn asset field with
  | error error => rfl
  | ok column =>
    simp only [Except.map, bind, Except.bind, reorderColumn,
      ColumnData.convert?_reorder (h.perm_of_fieldColumn hcolumn)]
    cases column.data.convert? conversion with
    | none => rfl
    | some entries => rfl

/-- What is kept of the entries of a field is put in order with them. -/
theorem map_fieldEntries (h : Corresponds order table other) (field : Field) {α β : Type}
    (conversion : Conversion α) (keep : Option α → β) :
    ((other.fieldEntries asset field conversion).map fun entries ↦ entries.map keep) =
      ((table.fieldEntries asset field conversion).map fun entries ↦ entries.map keep).map
        (pick order) := by
  rw [h.fieldEntries field conversion]
  cases table.fieldEntries asset field conversion with
  | error error => rfl
  | ok entries => exact congrArg Except.ok (map_pick keep order entries)

theorem prices (h : Corresponds order table other) (field : Field) :
    other.prices asset field = (table.prices asset field).map (pick order) :=
  h.map_fieldEntries field .double keptPrice

theorem volumes (h : Corresponds order table other) :
    other.volumes asset = (table.volumes asset).map (pick order) :=
  h.map_fieldEntries .volume .int64 fun entry ↦ entry.getD 0

theorem days (h : Corresponds order table other) {column : Column}
    (hcolumn : table.dayColumn? = some column) :
    SameOutcome asset ((Table.days asset column.data).map (pick order))
      (Table.days asset (column.data.reorder order)) := by
  have horder : order.Perm (List.range column.data.height) := by
    rw [height_of_dayColumn? hcolumn]
    exact h.perm
  have hoption : (Table.days asset (column.data.reorder order)).toOption =
      (Table.days asset column.data).toOption.map (pick order) := toOption_days_reorder horder
  cases hdays : Table.days asset column.data with
  | error error =>
    cases hother : Table.days asset (column.data.reorder order) with
    | error other =>
      obtain ⟨reason, rfl⟩ := exists_fault_of_days hdays
      obtain ⟨second, rfl⟩ := exists_fault_of_days hother
      exact .index reason second
    | ok found =>
      rw [hdays, hother] at hoption
      cases hoption
  | ok found =>
    cases hother : Table.days asset (column.data.reorder order) with
    | error other =>
      rw [hdays, hother] at hoption
      cases hoption
    | ok others =>
      rw [hdays, hother] at hoption
      obtain rfl : others = pick order found := Option.some_inj.1 hoption
      exact .refl _

/-- **The bars are put in order with the rows.** -/
theorem rowBars (h : Corresponds order table other) :
    SameOutcome asset ((table.rowBars asset).map (pick order)) (other.rowBars asset) := by
  have hsame : ∀ field, SameOutcome asset ((table.prices asset field).map (pick order))
      (other.prices asset field) := fun field ↦ h.prices field ▸ .refl _
  rw [Table.rowBars, Table.rowBars, h.missingColumns]
  dsimp only
  split
  · exact .refl _
  rw [h.dayColumn?]
  cases hcolumn : table.dayColumn? with
  | none => exact .refl _
  | some column =>
    -- The first step that fails is the same one in both tables.
    refine (h.days hcolumn).bind fun found hfound ↦ (hsame _).bind fun opens hopens ↦
      (hsame _).bind fun highs hhighs ↦ (hsame _).bind fun lows hlows ↦
      (hsame _).bind fun closes hcloses ↦ ?_
    have hvolume : SameOutcome asset ((table.volumes asset).map (pick order))
        (other.volumes asset) := h.volumes ▸ .refl _
    refine hvolume.bind fun volumes hvolumes ↦ ?_
    have hday := (length_days hfound).trans (height_of_dayColumn? hcolumn)
    have hopen := (prices_spec hopens).1
    have hhigh := (prices_spec hhighs).1
    have hlow := (prices_spec hlows).1
    have hclose := (prices_spec hcloses).1
    have hvolume := (volumes_spec hvolumes).1
    have hlast := length_zip_of_eq hclose hvolume
    have hlater := length_zip_of_eq hlow hlast
    have hprices := length_zip_of_eq hhigh hlater
    have hvalues := length_zip_of_eq hopen hprices
    show SameOutcome asset (.ok (pick order _)) (.ok _)
    rw [← map_pick, pick_zip hday hvalues, pick_zip hopen hprices, pick_zip hhigh hlater,
      pick_zip hlow hlast, pick_zip hclose hvolume]
    exact .refl _

end Corresponds

end Table

end DailyBars
