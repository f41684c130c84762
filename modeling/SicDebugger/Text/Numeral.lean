/-!
# Unsigned numerals

A numeral is an optional plus sign and one or more digits of its radix. It is read from the left,
and the first fault met is the one reported: a character that is no digit, or a value that has
passed the limit. Beside the reader stand the two printers of hexadecimal text, one of fixed width
and one without padding.
-/

namespace SicDebugger.Text

/-- Why a text is no numeral of the asked range. -/
inductive NumeralFault where
  | empty
  | invalidDigit
  | tooLarge
deriving DecidableEq, Repr

/-- The wording of a numeral's fault. -/
def NumeralFault.message : NumeralFault → String
  | .empty => "cannot parse integer from empty string"
  | .invalidDigit => "invalid digit found in string"
  | .tooLarge => "number too large to fit in target type"

/-- The value of a digit of the radix, letters of either case counting on from ten. -/
def digitValue? (radix : Nat) (c : Char) : Option Nat :=
  let v :=
    if '0' ≤ c ∧ c ≤ '9' then some (c.toNat - '0'.toNat)
    else if 'a' ≤ c ∧ c ≤ 'z' then some (c.toNat - 'a'.toNat + 10)
    else if 'A' ≤ c ∧ c ≤ 'Z' then some (c.toNat - 'A'.toNat + 10)
    else none
  v.filter (· < radix)

/-- Reads digits behind the value `n` read so far, refusing any value of `bound` or more. -/
def readDigits (radix bound : Nat) : Nat → List Char → Except NumeralFault Nat
  | n, [] => .ok n
  | n, c :: r =>
    match digitValue? radix c with
    | none => .error .invalidDigit
    | some d =>
      if n * radix + d < bound then readDigits radix bound (n * radix + d) r
      else .error .tooLarge

/-- Reads a whole numeral whose value is below `bound`. -/
def readNumeral (radix bound : Nat) : List Char → Except NumeralFault Nat
  | [] => .error .empty
  | '+' :: c :: r => readDigits radix bound 0 (c :: r)
  | s => readDigits radix bound 0 s

/-- The numeral's value, or nothing where the text is none. -/
def readNumeral? (radix bound : Nat) (s : List Char) : Option Nat :=
  (readNumeral radix bound s).toOption

/-- An upper-case hexadecimal digit. -/
def hexDigit (n : Nat) : Char :=
  if n < 10 then Char.ofNat ('0'.toNat + n) else Char.ofNat ('A'.toNat + n - 10)

/-- The lowest `width` hexadecimal digits of a number, upper-case, the highest first. -/
def hexFixed : (width : Nat) → Nat → List Char
  | 0, _ => []
  | width + 1, n => hexFixed width (n / 16) ++ [hexDigit (n % 16)]

/-- Lower-case hexadecimal digits without padding. -/
def hexPlain (n : Nat) : String := String.ofList (Nat.toDigits 16 n)

@[simp] theorem length_hexFixed (width n : Nat) : (hexFixed width n).length = width := by
  induction width generalizing n with
  | zero => rfl
  | succ width ih => simp [hexFixed, ih]

example : readNumeral? 16 UInt32.size "+0fF".toList = some 255 := by decide
example : readNumeral 10 UInt32.size "4294967296x".toList = .error .tooLarge := by rfl
example : readNumeral 10 UInt32.size "-1".toList = .error .invalidDigit := by rfl

end SicDebugger.Text
