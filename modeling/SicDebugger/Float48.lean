import SicDebugger.Binary64.Decimal
import SicDebugger.Error
import SicDebugger.Text.Blank

/-!
# The 48-bit floating-point format

The float register holds 48 bits: a sign, an exponent field of 15 bits with bias 16383, and a
fraction of 32 bits behind a hidden one. Doubles are encoded by rounding their fraction to 32 bits,
a tie going away from zero, and a pattern is decoded in the arithmetic of doubles, as its significand
times a power of two. The pattern of all zeros is zero, and the largest pattern of each sign stands
for what is too large.
-/

namespace SicDebugger

namespace Float48

/-- Sign, exponent field and fraction of a pattern. -/
structure Fields where
  sign : Nat
  exponent : Nat
  fraction : Nat
deriving DecidableEq, Repr

/-- The fields of a pattern. Bits above the 48th do not count. -/
def fields (raw : UInt64) : Fields where
  sign := raw.toNat / Nat.pow 2 47 % 2
  exponent := raw.toNat / Nat.pow 2 32 % Nat.pow 2 15
  fraction := raw.toNat % Nat.pow 2 32

/-- The pattern with the given fields. -/
def ofFields (f : Fields) : UInt64 :=
  UInt64.ofNat (f.sign * Nat.pow 2 47 + f.exponent * Nat.pow 2 32 + f.fraction)

/-- The largest pattern of a sign. -/
def saturated (negative : Bool) : UInt64 := ofFields ⟨negative.toNat, Nat.pow 2 15 - 1, Nat.pow 2 32 - 1⟩

/-- The pattern of a biased exponent and a fraction. An exponent above the field saturates, and one
below it is flushed to zero. -/
def pack (negative : Bool) (biased : Int) (fraction : Nat) : UInt64 :=
  if Nat.pow 2 15 - 1 ≤ biased then saturated negative
  else if biased ≤ 0 then 0
  else ofFields ⟨negative.toNat, biased.toNat, fraction⟩

/-- Biased exponent and 52 fraction bits of a double other than zero, with the leading one of a
subnormal moved into the hidden place. -/
def normalized (x : Binary64) : Int × Nat :=
  if x.exponentField = 0 then
    let shift := 52 - Nat.log2 x.fractionField
    (16383 - 1022 - (shift : Int), x.fractionField * Nat.pow 2 shift % Nat.pow 2 52)
  else ((x.exponentField : Int) - 1023 + 16383, x.fractionField)

/-- The pattern of a double. -/
def encode (x : Binary64) : UInt64 :=
  if x.isInfinite then saturated x.negative
  else if x.isZero then 0
  else
    let (biased, fraction) := normalized x
    let rounded := (fraction + Nat.pow 2 19) / Nat.pow 2 20
    -- rounding up can reach the next power of two
    if Nat.pow 2 32 ≤ rounded then pack x.negative (biased + 1) 0
    else pack x.negative biased rounded

/-- The double of a pattern: its significand times its power of two, in the arithmetic of doubles. -/
def decode (raw : UInt64) : Binary64 :=
  let f := fields raw
  if f.exponent = 0 ∧ f.fraction = 0 then .zero (f.sign == 1)
  else
    let significand := (Binary64.ofNat 1).add ((Binary64.ofNat f.fraction).div (.ofNat (Nat.pow 2 32)))
    -- a power past the range counts as `2 ^ 1024`, so that the product is past the range as well;
    -- a power below `2 ^ (-1022)` is the nearest double here, although a power function may leave
    -- it open and one over `2 ^ (-k)` is zero from `k = -1024` down: no theorem reaches such a power
    let magnitude := significand.mul (.powerOfTwo ((f.exponent : Int) - 16383))
    if f.sign = 1 then magnitude.neg else magnitude

/-- The pattern of a decimal text, blanks at its ends set aside. -/
def ofDecimal (text : String) : Except Error UInt64 :=
  match Binary64.ofText? (Text.trim text) with
  | some x => if x.isNaN then .error (.invalidFloat text) else .ok (encode x)
  | none => .error (.invalidFloat text)

/-! ## Hexadecimal text -/

/-- Twelve hexadecimal digits behind `0x`. -/
def toHex (raw : UInt64) : String := String.ofList ('0' :: 'x' :: Text.hexFixed 12 raw.toNat)

/-- Drops every repetition of `0x`, with the given letter for the `x`, from the front. -/
def dropMarks (x : Char) : List Char → List Char
  | '0' :: c :: r => if c = x then dropMarks x r else '0' :: c :: r
  | s => s

/-- The number that a hexadecimal text denotes, behind any marks `0x` and then any marks `0X`. -/
def ofHex (text : String) : Except Error UInt64 :=
  let digits := dropMarks 'X' (dropMarks 'x' (Text.trimChars text.toList))
  match Text.readNumeral? 16 UInt64.size digits with
  | some n => .ok (UInt64.ofNat n)
  | none => .error (.invalidFloat text)

/-- The hexadecimal pattern of a decimal text. -/
def hexOfDecimal (text : String) : Except Error String := (ofDecimal text).map toHex

end Float48
end SicDebugger
