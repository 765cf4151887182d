import DailyBars.Binary64.Shortest

/-!
# Doubles as text

A double is written with its shortest digits. A layout decides where they stand: without an
exponent if the power of ten of the leading digit lies between two bounds, else with one digit
before the point and the power of ten as a signed exponent. Which whole numbers end in `.0` is part
of the layout too.
-/

namespace DailyBars.Binary64

/-- How the digits of a finite double are laid out. -/
structure Layout where
  /-- Whether a number with this power of ten of its leading digit is written without an
  exponent. -/
  isPositional : Int → Bool
  /-- Whether whole numbers without an exponent end in `.0`. -/
  hasPoint : Bool

/-- Never an exponent, never a superfluous point. -/
def Layout.plain : Layout := ⟨fun _ ↦ true, false⟩

/-- Sixteen places before the point and four zeros after it, always a point. -/
def Layout.document : Layout := ⟨fun power ↦ -5 ≤ power && power < 16, true⟩

/-- The digits of a decimal. -/
def Decimal.chars (d : Decimal) : List Char :=
  Nat.toDigits 10 d.digits

/-- The power of ten of the leading digit of a decimal. -/
def Decimal.power (d : Decimal) : Int :=
  d.exponent + (d.chars.length - 1 : Nat)

/-- A decimal without an exponent. -/
def Decimal.positional (hasPoint : Bool) (d : Decimal) : List Char :=
  let chars := d.chars
  if 0 ≤ d.exponent then
    chars ++ List.replicate d.exponent.toNat '0' ++ (if hasPoint then ['.', '0'] else [])
  else
    let places := (-d.exponent).toNat
    let filled := List.replicate (places + 1 - chars.length) '0' ++ chars
    filled.take (filled.length - places) ++ '.' :: filled.drop (filled.length - places)

/-- A decimal with one digit before the point and an exponent. -/
def Decimal.scientific (d : Decimal) : List Char :=
  let mantissa :=
    match d.chars with
    | first :: second :: rest => first :: '.' :: second :: rest
    | chars => chars
  let sign := if d.power < 0 then '-' else '+'
  mantissa ++ 'e' :: sign :: Nat.toDigits 10 d.power.natAbs

/-- A finite double in a layout. -/
def Layout.finite (layout : Layout) (x : Binary64) : String :=
  let decimal := x.shortest
  let chars :=
    if layout.isPositional decimal.power then decimal.positional layout.hasPoint
    else decimal.scientific
  String.ofList (if x.isNegative then '-' :: chars else chars)

/-- A double in plain digits, or the name of what is no number or not finite. -/
def plainText (x : Binary64) : String :=
  if x.isFinite then Layout.plain.finite x
  else if x.isNaN then "NaN"
  else if x.isNegative then "-inf"
  else "inf"

end DailyBars.Binary64
