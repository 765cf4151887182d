import DailyBars.AssetId
import DailyBars.Binary64.Basic
import DailyBars.Day.Text
import DailyBars.Text.Basic

/-!
# Daily bars

A bar holds the four prices and the volume of one asset on one day. A stored price of zero stands
for an unknown price and is served as NaN; volumes are served as they are.
-/

namespace DailyBars

/-- The values of a bar. -/
inductive Field where
  | openPrice
  | highPrice
  | lowPrice
  | closePrice
  | volume
deriving DecidableEq

namespace Field

/-- All fields, in the order of the columns of a store. -/
def all : List Field := [openPrice, highPrice, lowPrice, closePrice, volume]

/-- The column of a store that holds the field. -/
def name : Field → String
  | openPrice => "open"
  | highPrice => "high"
  | lowPrice => "low"
  | closePrice => "close"
  | volume => "volume"

def isPrice (field : Field) : Bool :=
  field != volume

/-- The value served where an asset has no bar. -/
def missing (field : Field) : Binary64 :=
  if field.isPrice then .nan else .zero

/-- The value served for a stored one. -/
def present (field : Field) (stored : Binary64) : Binary64 :=
  if field.isPrice && stored.isZero then .nan else stored

/-- The field of a name, in any case and with blanks around it. -/
def ofName? (text : String) : Option Field :=
  all.find? fun field ↦ field.name == Text.nameKey text

/-- What is said of a name that no field has. -/
def unknownMessage (text : String) : String :=
  "unknown bar field '" ++ Text.nameKey text ++ "'"

theorem mem_all (field : Field) : field ∈ all := by
  cases field <;> decide

end Field

/-- The prices and the volume of one asset on one day. -/
structure Bar where
  asset : AssetId
  day : Day
  openPrice : Binary64
  highPrice : Binary64
  lowPrice : Binary64
  closePrice : Binary64
  volume : Int64
deriving DecidableEq

namespace Bar

/-- The value of a field as a double; a volume becomes the nearest one. -/
def value (bar : Bar) : Field → Binary64
  | .openPrice => bar.openPrice
  | .highPrice => bar.highPrice
  | .lowPrice => bar.lowPrice
  | .closePrice => bar.closePrice
  | .volume => .ofInt bar.volume.toInt

/-- The four prices, in the order of the columns of a store. -/
def prices (bar : Bar) : List Binary64 :=
  [bar.openPrice, bar.highPrice, bar.lowPrice, bar.closePrice]

/-- Whether some price is not a number. -/
def hasNaN (bar : Bar) : Bool :=
  bar.prices.any Binary64.isNaN

end Bar

end DailyBars
