import DailyBars.Binary64.Basic
import DailyBars.Text.Basic
import DailyBars.Text.Digits

/-!
# Doubles read from decimal text

A number is an optional sign, digits with at most one point and at least one digit, and an
optional exponent; or an optional sign and one of `inf`, `infinity` and `nan` in any case. The
value is the nearest double. Exponents far outside the range of doubles are answered without
computing the power of ten.
-/

namespace DailyBars.Binary64

/-- The double nearest to `digits * 10 ^ exponent`. -/
def ofDecimal (negative : Bool) (digits : Nat) (exponent : Int) : Binary64 :=
  let length : Int := (Nat.toDigits 10 digits).length
  if digits = 0 then ofMagnitude negative 0
  else if 400 < length + exponent then ofMagnitude negative infiniteMagnitude
  else if length + exponent < -400 then ofMagnitude negative 0
  else if 0 ≤ exponent then ofRatio negative (digits * tenPow exponent.toNat) 1
  else ofRatio negative digits (tenPow (-exponent).toNat)

/-- The exponent at the end of a number; no text is exponent zero. -/
def exponent? : List Char → Option Int
  | [] => some 0
  | c :: rest => if c = 'e' ∨ c = 'E' then Text.integer? rest else none

/-- The words for the values that have no digits. -/
def named? (negative : Bool) (text : List Char) : Option Binary64 :=
  let word := text.map Char.toLower
  if word = "inf".toList ∨ word = "infinity".toList then
    some (ofMagnitude negative infiniteMagnitude)
  else if word = "nan".toList then some nan
  else none

/-- A double from the whole of a text. -/
def ofText? (text : List Char) : Option Binary64 :=
  let (negative, unsigned) := Text.splitSign text
  let (whole, afterWhole) := Text.spanDigits unsigned
  let (fraction, afterFraction) :=
    match afterWhole with
    | '.' :: rest => Text.spanDigits rest
    | rest => ([], rest)
  if whole.isEmpty && fraction.isEmpty then named? negative unsigned
  else
    (exponent? afterFraction).map fun exponent ↦
      ofDecimal negative (Text.ofDigits (whole ++ fraction)) (exponent - fraction.length)

end DailyBars.Binary64
