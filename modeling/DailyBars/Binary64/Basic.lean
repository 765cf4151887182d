/-!
# Doubles as words

A double is its 64-bit word: a sign bit, eleven exponent bits and fifty-two fraction bits. All
operations work on the word and on whole numbers, so that they can be computed and reasoned about
alike. The value of a finite double is `significand * 2 ^ exponent`, and rounding goes to the
nearest double, a tie to the one with an even significand.
-/

namespace DailyBars

/-- A double-precision number, as its word. -/
structure Binary64 where
  /-- The sign, exponent and fraction bits. -/
  bits : UInt64
deriving DecidableEq

namespace Binary64

/-- The weight of the sign bit: two to the power of 63. -/
def signWeight : Nat := 0x8000000000000000

/-- The number of values of the fraction bits: two to the power of 52. -/
def fractionCount : Nat := 0x10000000000000

/-- A power of ten. -/
def tenPow (n : Nat) : Nat := Nat.pow 10 n

/-- The word without its sign bit. -/
def magnitude (x : Binary64) : Nat :=
  x.bits.toNat % signWeight

/-- Whether the sign bit is set. -/
def isNegative (x : Binary64) : Bool :=
  signWeight ≤ x.bits.toNat

/-- The magnitude of the infinities; every greater magnitude is a NaN. -/
def infiniteMagnitude : Nat :=
  2047 * fractionCount

/-- A double from its sign and its magnitude. -/
def ofMagnitude (negative : Bool) (magnitude : Nat) : Binary64 :=
  ⟨UInt64.ofNat ((if negative then signWeight else 0) + magnitude)⟩

def zero : Binary64 := ofMagnitude false 0
def negZero : Binary64 := ofMagnitude true 0
def infinity : Binary64 := ofMagnitude false infiniteMagnitude
def negInfinity : Binary64 := ofMagnitude true infiniteMagnitude
def nan : Binary64 := ofMagnitude false (infiniteMagnitude + fractionCount / 2)

instance : Inhabited Binary64 := ⟨zero⟩

def isNaN (x : Binary64) : Bool :=
  infiniteMagnitude < x.magnitude

def isFinite (x : Binary64) : Bool :=
  x.magnitude < infiniteMagnitude

/-- Whether the value is zero, of either sign. -/
def isZero (x : Binary64) : Bool :=
  x.magnitude == 0

/-- The double itself, but the positive zero for either zero. -/
def dropZeroSign (x : Binary64) : Binary64 :=
  if x.isZero then zero else x

/-- The whole-number factor of a finite double. -/
def significand (x : Binary64) : Nat :=
  if x.magnitude < fractionCount then x.magnitude
  else fractionCount + x.magnitude % fractionCount

/-- The power of two that the significand of a finite double is multiplied by. -/
def exponent (x : Binary64) : Int :=
  if x.magnitude < fractionCount then -1074 else (x.magnitude / fractionCount : Nat) - 1075

/-- A width of floating-point numbers: the bits of a significand, the least exponent that one is
multiplied with, and the least power of two too large to be represented. -/
structure Width where
  precision : Nat
  minExponent : Int
  overflow : Int

def Width.double : Width := ⟨53, -1074, 1024⟩
def Width.single : Width := ⟨24, -149, 128⟩

/-- `num / den` to the nearest whole number, a tie to the even one. -/
def roundDiv (num den : Nat) : Nat :=
  let q := num / den
  let r := num % den
  if 2 * r < den then q
  else if den < 2 * r then q + 1
  else if q % 2 = 0 then q else q + 1

/-- `num / den / 2 ^ exponent` to the nearest whole number. -/
def roundScaled (num den : Nat) (exponent : Int) : Nat :=
  if 0 ≤ exponent then roundDiv num (den <<< exponent.toNat)
  else roundDiv (num <<< (-exponent).toNat) den

/-- The exponent at which `num / den` has a significand of full width, or the least exponent. -/
def Width.exponentOf (width : Width) (num den : Nat) : Int :=
  let estimate : Int := (num.log2 : Int) - den.log2 - width.precision
  let full : Nat := 1 <<< width.precision
  let isWide : Bool :=
    if 0 ≤ estimate then full * (den <<< estimate.toNat) ≤ num
    else full * den ≤ num <<< (-estimate).toNat
  max (if isWide then estimate + 1 else estimate) width.minExponent

/-- The magnitude of `q * 2 ^ exponent`, for a significand `q` of at most 53 bits that has all of
them unless the exponent is the least. A significand of `2 ^ 53` carries into the exponent. -/
def magnitudeOf (q : Nat) (exponent : Int) : Nat :=
  (exponent + 1074).toNat * fractionCount + q

/-- The double nearest to `num / den`, for a positive `den`; too large a value becomes infinite. -/
def ofRatio (negative : Bool) (num den : Nat) : Binary64 :=
  if num = 0 then ofMagnitude negative 0
  else
    let exponent := Width.double.exponentOf num den
    let magnitude := magnitudeOf (roundScaled num den exponent) exponent
    ofMagnitude negative (min magnitude infiniteMagnitude)

/-- The double nearest to a whole number. -/
def ofInt (n : Int) : Binary64 :=
  ofRatio (n < 0) n.natAbs 1

/-- The value of a finite double, without its sign, as a quotient of whole numbers. -/
def ratio (x : Binary64) : Nat × Nat :=
  if 0 ≤ x.exponent then (x.significand <<< x.exponent.toNat, 1)
  else (x.significand, 1 <<< (-x.exponent).toNat)

/-- The whole part of a finite double, toward zero. -/
def toInt? (x : Binary64) : Option Int :=
  if x.isFinite then
    let (num, den) := x.ratio
    let whole : Int := (num / den : Nat)
    some (if x.isNegative then -whole else whole)
  else none

/-- The double that holds the single-precision number nearest to `x`. -/
def toSingle (x : Binary64) : Binary64 :=
  if !x.isFinite || x.isZero then x
  else
    let (num, den) := x.ratio
    let exponent := Width.single.exponentOf num den
    let q := roundScaled num den exponent
    let limit : Nat := 1 <<< (Width.single.overflow - exponent).toNat
    if limit ≤ q then ofMagnitude x.isNegative infiniteMagnitude
    else if 0 ≤ exponent then ofRatio x.isNegative (q <<< exponent.toNat) 1
    else ofRatio x.isNegative q (1 <<< (-exponent).toNat)

end Binary64

end DailyBars
