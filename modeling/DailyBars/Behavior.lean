import DailyBars.Text.Basic

/-!
# Dispositions for invalid data

What a write does with a table or a segment that fails validation.
-/

namespace DailyBars

/-- The disposition of a write for invalid data. -/
inductive Behavior where
  /-- The write fails with the fault. -/
  | raise
  /-- The segment is dropped with a warning. -/
  | warn
  /-- The segment is dropped. -/
  | ignore
deriving DecidableEq

namespace Behavior

instance : Inhabited Behavior := ⟨warn⟩

def all : List Behavior := [raise, warn, ignore]

def name : Behavior → String
  | raise => "raise"
  | warn => "warn"
  | ignore => "ignore"

/-- The disposition of a name, in any case and with blanks around it. -/
def ofName? (text : String) : Option Behavior :=
  all.find? fun behavior ↦ behavior.name == Text.nameKey text

/-- What is said of a name that no disposition has. -/
def unknownMessage (text : String) : String :=
  "unknown invalid-data behavior '" ++ Text.nameKey text ++ "' (expected raise, warn or ignore)"

end Behavior

end DailyBars
