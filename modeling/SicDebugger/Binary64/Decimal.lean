import SicDebugger.Binary64.Basic

/-!
# Reading a double from decimal text

A number is an optional sign and either one of the words `inf`, `infinity` and `nan` in any case,
or digits with an optional point among them, at least one digit in all, and an optional exponent.
The value is exact and rounded once, so a magnitude past the range is an infinity and one below it
a zero.
-/

namespace SicDebugger

/-- A finite decimal: a sign and `coefficient * 10 ^ exponent`. -/
structure Decimal where
  negative : Bool
  coefficient : Nat
  exponent : Int
deriving DecidableEq, Repr

namespace Decimal

/-- The number that a run of digits denotes, behind the value read so far. -/
def foldDigits (n : Nat) (s : List Char) : Nat :=
  s.foldl (fun n c => n * 10 + (c.toNat - '0'.toNat)) n

/-- Reads an exponent part: nothing, or the letter, an optional sign and one or more digits. -/
def readExponent? : List Char → Option Int
  | [] => some 0
  | c :: r =>
    if c = 'e' ∨ c = 'E' then
      let (minus, digits) : Bool × List Char :=
        match r with
        | '-' :: d => (true, d)
        | '+' :: d => (false, d)
        | d => (false, d)
      if digits.isEmpty || !digits.all Char.isDigit then none
      else
        let n : Int := foldDigits 0 digits
        some (if minus then -n else n)
    else none

/-- Reads digits, point and exponent behind a sign. -/
def readUnsigned? (negative : Bool) (s : List Char) : Option Decimal :=
  let whole := s.takeWhile Char.isDigit
  let (fraction, rest) : List Char × List Char :=
    match s.dropWhile Char.isDigit with
    | '.' :: t => (t.takeWhile Char.isDigit, t.dropWhile Char.isDigit)
    | t => ([], t)
  if whole.isEmpty && fraction.isEmpty then none
  else (readExponent? rest).map fun e =>
    { negative, coefficient := foldDigits (foldDigits 0 whole) fraction
      exponent := e - fraction.length }

/-- The nearest double. A decimal whose leading digit stands far outside the range of doubles is
decided by that alone, so that no huge power of ten is built. -/
def toBinary64 (d : Decimal) : Binary64 :=
  let top : Int := (Nat.toDigits 10 d.coefficient).length + d.exponent
  if d.coefficient = 0 ∨ top < -400 then .zero d.negative
  else if 400 < top then .infinity d.negative
  else .ofRatio d.negative (d.coefficient * Nat.pow 10 d.exponent.toNat) (Nat.pow 10 (-d.exponent).toNat)

end Decimal

namespace Binary64

/-- Splits a sign off the front. -/
def splitSign : List Char → Bool × List Char
  | '-' :: r => (true, r)
  | '+' :: r => (false, r)
  | s => (false, s)

/-- The double that the characters denote. -/
def ofChars? (s : List Char) : Option Binary64 :=
  let (minus, r) := splitSign s
  let word := r.map Char.toLower
  if word = "inf".toList ∨ word = "infinity".toList then some (infinity minus)
  else if word = "nan".toList then some (nan minus)
  else (Decimal.readUnsigned? minus r).map Decimal.toBinary64

/-- The double that the text denotes. -/
def ofText? (s : String) : Option Binary64 := ofChars? s.toList

example : ofText? "5." = some (ofNat 5) := by decide +kernel
example : ofText? "-iNf" = some (infinity true) := by decide +kernel
example : ofText? "1e" = none := by decide +kernel

end Binary64
end SicDebugger
