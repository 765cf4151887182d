import DailyBars.Toml.Value

/-!
# Building TOML tables

Tables are built from paths of keys. What a table came from decides what may be added to it: a
table with a header of its own is complete, one that was only passed on the way to another may
still get its header, and one made by dotted keys takes further dotted keys only. Values, and among
them the tables written in braces, take nothing more. The last table of an array of tables is the
one that paths lead into.
-/

namespace DailyBars.Toml

/-- What a table came from. -/
inductive Origin where
  /-- A header of its own. -/
  | header
  /-- The header of a table inside it. -/
  | passed
  /-- A dotted key. -/
  | dotted
deriving DecidableEq

/-- What stands at a key while a table is built. -/
inductive Node where
  | value (value : Value)
  | table (origin : Origin) (entries : List (String × Node))
  /-- An array of tables, the last table first. -/
  | tables (last : List (String × Node)) (earlier : List (List (String × Node)))

/-- The entries of a table while it is built. -/
abbrev Entries : Type := List (String × Node)

/-- The node at a key. -/
def Entries.node? (entries : Entries) (key : String) : Option Node :=
  (entries.find? fun entry ↦ entry.1 == key).map (·.2)

/-- The entries with a node put at a key. -/
def Entries.put (entries : Entries) (key : String) (node : Node) : Entries :=
  match entries with
  | [] => [(key, node)]
  | entry :: rest =>
    if entry.1 == key then (key, node) :: rest else entry :: Entries.put rest key node

/-- The entries with the table at the end of a path changed. Tables that are missing on the way are
made. A path of dotted keys does not lead through a table with a header. -/
def Entries.edit (isDotted : Bool) (change : Origin → Entries → Option Entries) :
    List String → Origin → Entries → Option Entries
  | [], origin, entries => change origin entries
  | key :: path, _, entries =>
    match entries.node? key with
    | none => do
      let origin := if isDotted then .dotted else .passed
      let made ← Entries.edit isDotted change path origin []
      return entries.put key (.table origin made)
    | some (.value _) => none
    | some (.tables last earlier) => do
      let last ← Entries.edit isDotted change path .header last
      return entries.put key (.tables last earlier)
    | some (.table origin inner) => do
      if isDotted ∧ origin = .header then none
      let inner ← Entries.edit isDotted change path origin inner
      return entries.put key (.table origin inner)

/-- The entries with a value at the end of a path of keys; nothing may be there already, and a table
on the way has to be one that dotted keys made. -/
def Entries.assign (entries : Entries) (path : List String) (key : String) (value : Value) :
    Option Entries :=
  let change (origin : Origin) (inner : Entries) : Option Entries :=
    if (origin == .dotted) == path.isEmpty then none
    else if (inner.node? key).isSome then none
    else some (inner.put key (.value value))
  entries.edit true change path .header

/-- The entries with the table of a header made or completed. -/
def Entries.openTable (entries : Entries) (path : List String) (key : String) : Option Entries :=
  let change (_ : Origin) (inner : Entries) : Option Entries :=
    match inner.node? key with
    | none => some (inner.put key (.table .header []))
    | some (.table .passed content) => some (inner.put key (.table .header content))
    | some _ => none
  entries.edit false change path .header

/-- The entries with one more table in the array of tables of a header. -/
def Entries.openItem (entries : Entries) (path : List String) (key : String) : Option Entries :=
  let change (_ : Origin) (inner : Entries) : Option Entries :=
    match inner.node? key with
    | none => some (inner.put key (.tables [] []))
    | some (.tables last earlier) => some (inner.put key (.tables [] (last :: earlier)))
    | some _ => none
  entries.edit false change path .header

mutual

/-- The finished value of a node. -/
def Node.toValue : Node → Value
  | .value value => value
  | .table _ entries => .table (entriesToValues entries)
  | .tables last earlier =>
    .array ((Value.table (entriesToValues last) :: itemsToValues earlier).reverse)

/-- The finished values of entries. -/
def entriesToValues : List (String × Node) → List (String × Value)
  | [] => []
  | (key, node) :: rest => (key, node.toValue) :: entriesToValues rest

/-- The finished tables of an array of tables. -/
def itemsToValues : List (List (String × Node)) → List Value
  | [] => []
  | entries :: rest => .table (entriesToValues entries) :: itemsToValues rest

end

end DailyBars.Toml
