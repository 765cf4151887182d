import DailyBars.Binary64.Basic

/-!
# The shortest decimal of a double

`shortest x` is the decimal with the fewest digits among those that round to the finite positive
magnitude of `x`, and of these the one nearest to it. The decimals of a given number of digits
form a grid; if one of them rounds to `x`, so does one of the two grid points next to `x`, so only
those are tried.
-/

namespace DailyBars.Binary64

/-- A decimal number `digits * 10 ^ exponent`. -/
structure Decimal where
  digits : Nat
  exponent : Int
deriving DecidableEq

/-- Whether `num / den` rounds to the magnitude of `x`. -/
def roundsTo (x : Binary64) (num den : Nat) : Bool :=
  (ofRatio false num den).magnitude == x.magnitude

/-- `num / den * 10 ^ shift` as a quotient. -/
def scaleTen (num den : Nat) (shift : Int) : Nat × Nat :=
  if 0 ≤ shift then (num * tenPow shift.toNat, den) else (num, den * tenPow (-shift).toNat)

/-- The power of ten of the leading digit of `num / den`: `10 ^ k ≤ num / den < 10 ^ (k + 1)`. -/
def leadingPower (num den : Nat) : Int :=
  let estimate : Int := ((Nat.toDigits 10 num).length : Int) - (Nat.toDigits 10 den).length
  let (scaledNum, scaledDen) := scaleTen num den (-estimate)
  if scaledDen ≤ scaledNum then estimate else estimate - 1

/-- The decimal of `count` digits next to the magnitude of `x` that rounds to it, if one does. -/
def onGrid? (x : Binary64) (count : Nat) : Option Decimal :=
  let (num, den) := x.ratio
  let exponent := leadingPower num den - (count - 1 : Nat)
  let (scaledNum, scaledDen) := scaleTen num den (-exponent)
  let low := scaledNum / scaledDen
  let high := low + 1
  let fits (digits : Nat) : Bool :=
    let (n, d) := scaleTen digits 1 exponent
    roundsTo x n d
  let lowFits := fits low
  let highFits := fits high
  let remainder := scaledNum % scaledDen
  let isLow : Bool :=
    2 * remainder < scaledDen || (2 * remainder == scaledDen && low % 2 == 0)
  if lowFits && (isLow || !highFits) then some ⟨low, exponent⟩
  else if highFits then some ⟨high, exponent⟩
  else none

/-- The decimal with trailing zeros of its digits moved into the exponent. -/
def Decimal.trimZeros (d : Decimal) : Decimal :=
  if h : 0 < d.digits ∧ d.digits % 10 = 0 then
    Decimal.trimZeros ⟨d.digits / 10, d.exponent + 1⟩
  else d
termination_by d.digits
decreasing_by omega

/-- The shortest decimal that rounds to the magnitude of a finite double. -/
def shortest (x : Binary64) : Decimal :=
  if x.isZero then ⟨0, 0⟩
  else
    match (List.range 17).findSome? fun i ↦ onGrid? x (i + 1) with
    | some decimal => decimal.trimZeros
    | none => ⟨0, 0⟩

end DailyBars.Binary64
