/-!
# Double-precision numbers as bit patterns

A double is its 64 bits: a sign, an exponent field of eleven bits and a fraction field of 52. Its
value is read off the fields exactly, as a natural number times a power of two, and rounding goes
the other way: from an exact quotient to the nearest double, a tie to the even neighbour, past the
largest finite one to an infinity. Sums, products and quotients are exact results, rounded once.
-/

namespace SicDebugger

/-- A double-precision number, by its bits. -/
structure Binary64 where
  bits : UInt64
deriving DecidableEq, Repr, Inhabited

namespace Binary64

/-- Whether the sign bit is set. -/
def negative (x : Binary64) : Bool := decide (Nat.pow 2 63 ≤ x.bits.toNat)

/-- The eleven bits of the exponent. -/
def exponentField (x : Binary64) : Nat := x.bits.toNat / Nat.pow 2 52 % Nat.pow 2 11

/-- The 52 bits of the fraction. -/
def fractionField (x : Binary64) : Nat := x.bits.toNat % Nat.pow 2 52

/-- The double with the given sign whose other bits count up to `magnitude`. -/
def ofMagnitude (negative : Bool) (magnitude : Nat) : Binary64 :=
  ⟨UInt64.ofNat ((if negative then Nat.pow 2 63 else 0) + magnitude)⟩

/-- The zero with the given sign. -/
def zero (negative : Bool) : Binary64 := ofMagnitude negative 0

/-- The infinity with the given sign. -/
def infinity (negative : Bool) : Binary64 := ofMagnitude negative (2047 * Nat.pow 2 52)

/-- The quiet NaN with the given sign. -/
def nan (negative : Bool) : Binary64 := ofMagnitude negative (2047 * Nat.pow 2 52 + Nat.pow 2 51)

/-- Whether the number is a NaN. -/
def isNaN (x : Binary64) : Bool := x.exponentField == 2047 && x.fractionField != 0

/-- Whether the number is an infinity. -/
def isInfinite (x : Binary64) : Bool := x.exponentField == 2047 && x.fractionField == 0

/-- Whether the number is neither infinite nor a NaN. -/
def isFinite (x : Binary64) : Bool := x.exponentField != 2047

/-- Whether the number is one of the two zeros. -/
def isZero (x : Binary64) : Bool := x.exponentField == 0 && x.fractionField == 0

/-- The number with its sign turned. -/
def neg (x : Binary64) : Binary64 := ofMagnitude (!x.negative) (x.bits.toNat % Nat.pow 2 63)

/-- The integer significand of a finite number, the hidden one included. -/
def significand (x : Binary64) : Nat :=
  if x.exponentField = 0 then x.fractionField else Nat.pow 2 52 + x.fractionField

/-- The weight of the last significand bit of a finite number, counted up from `2 ^ -1074`. -/
def scale (x : Binary64) : Nat := x.exponentField - 1

/-! ## Rounding an exact quotient -/

/-- The integer nearest to a quotient, a tie going to the even one. -/
def roundHalfEven (num den : Nat) : Nat :=
  let q := num / den
  let r := num % den
  if 2 * r < den then q
  else if den < 2 * r then q + 1
  else if q % 2 = 0 then q else q + 1

/-- Bits of the magnitude nearest to `num / den` counted in units of `2 ^ -1074`: the weight of the
last bit is chosen so that the significand has 53 bits, or fewer at the bottom of the range. -/
def roundedMagnitude (num den : Nat) : Nat :=
  -- with `w` the number of binary digits of the quotient, all digits after the 53rd are rounded
  let shift := Nat.log2 (num / den) + 1 - 53
  let bits := shift * Nat.pow 2 52 + roundHalfEven num (den * Nat.pow 2 shift)
  min bits (2047 * Nat.pow 2 52)

/-- The double nearest to `num / den`, the given sign put in front. -/
def ofRatio (negative : Bool) (num den : Nat) : Binary64 :=
  ofMagnitude negative (roundedMagnitude (num * Nat.pow 2 1074) den)

/-- The double nearest to `m * 2 ^ e`, the given sign put in front. -/
def ofScaled (negative : Bool) (m : Nat) (e : Int) : Binary64 :=
  ofRatio negative (m * Nat.pow 2 e.toNat) (Nat.pow 2 (-e).toNat)

/-- The double nearest to a natural number. -/
def ofNat (n : Nat) : Binary64 := ofRatio false n 1

/-- The double nearest to a power of ten. -/
def powerOfTen (k : Nat) : Binary64 := ofNat (Nat.pow 10 k)

/-- The double nearest to a power of two. -/
def powerOfTwo (k : Int) : Binary64 := ofScaled false 1 k

/-! ## Arithmetic on finite numbers -/

/-- The exact value of a finite number as a count of units of `2 ^ -1074`. -/
def units (x : Binary64) : Nat := x.significand * Nat.pow 2 x.scale

/-- The exact value with its sign, in the same units. -/
def signedUnits (x : Binary64) : Int := if x.negative then -x.units else x.units

/-- The rounded sum of two finite numbers. A sum of zero is negative if both numbers are. -/
def add (x y : Binary64) : Binary64 :=
  let sum := x.signedUnits + y.signedUnits
  let negative := if sum = 0 then x.negative && y.negative else decide (sum < 0)
  ofRatio negative sum.natAbs (Nat.pow 2 1074)

/-- The rounded product of two finite numbers. -/
def mul (x y : Binary64) : Binary64 :=
  ofRatio (x.negative != y.negative) (x.units * y.units) (Nat.pow 2 2148)

/-- The rounded quotient of two finite numbers, the second not zero. -/
def div (x y : Binary64) : Binary64 :=
  ofRatio (x.negative != y.negative) x.units y.units

/-- The sixteen lower-case hexadecimal digits of the bits. -/
def toHex (x : Binary64) : String :=
  let digits := Nat.toDigits 16 x.bits.toNat
  String.ofList (List.replicate (16 - digits.length) '0' ++ digits)

example : (ofNat 1).bits = 0x3FF0000000000000 := by decide +kernel
example : (ofRatio false 1 10).bits = 0x3FB999999999999A := by decide +kernel
example : (ofScaled false 1 (-1074)).bits = 1 := by decide +kernel
example : (ofScaled true 1 1024) = infinity true := by decide +kernel

end Binary64
end SicDebugger
