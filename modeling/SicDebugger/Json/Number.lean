import SicDebugger.Binary64.Shortest

/-!
# Numbers of the data format

A number is kept as it is written, for the same text means different things to different readers:
a field of integers takes it only without fraction, exponent and minus sign, a field of doubles
takes every number within range. The double of a number is found in two roundings: as many leading
digits as fit into 64 bits become the nearest double, which is then multiplied or divided by the
nearest double to a power of ten.
-/

namespace SicDebugger

/-- A number as it is written: sign, integer part, digits of the fraction if there is a point, and
the exponent if there is one. -/
structure Number where
  negative : Bool
  whole : Nat
  fraction : Option (List Nat)
  exponent : Option Int
deriving DecidableEq, Repr, Inhabited

namespace Number

/-- The number that stands for a natural number. -/
def ofNat (n : Nat) : Number := ⟨false, n, none, none⟩

/-- The natural number that is written, where the text is that of one. -/
def toNat? (n : Number) : Option Nat :=
  if n.negative ∨ n.fraction.isSome ∨ n.exponent.isSome then none else some n.whole

/-- Leading digits that fit into 64 bits, and the power of ten behind them. -/
structure Significand where
  digits : Nat
  scale : Int
deriving DecidableEq, Repr

/-- Takes the digits of the integer part. From the first that does not fit they only count. -/
def takeWhole (digits : List Nat) : Significand :=
  digits.foldl (fun s d =>
    if s.scale = 0 ∧ s.digits * 10 + d < UInt64.size then { s with digits := s.digits * 10 + d }
    else { s with scale := s.scale + 1 }) ⟨0, 0⟩

/-- Takes the digits of the fraction, up to the first that does not fit. -/
def takeFraction : Significand → List Nat → Significand
  | s, [] => s
  | s, d :: r =>
    if s.digits * 10 + d < UInt64.size then takeFraction ⟨s.digits * 10 + d, s.scale - 1⟩ r else s

/-- The leading digits of the number. -/
def significand (n : Number) : Significand :=
  let whole := (Nat.toDigits 10 n.whole).map fun c => c.toNat - '0'.toNat
  takeFraction (takeWhole whole) (n.fraction.getD [])

/-- Divides by ten to the power `k`, in steps of at most `10 ^ 308`. Three full steps take every
significand to zero. -/
def divideByTens (x : Binary64) (k : Nat) : Binary64 :=
  let steps := (k - 1) / 308
  if 3 < steps then .zero false
  else
    let y := (List.range steps).foldl (fun y _ => y.div (.powerOfTen 308)) x
    y.div (.powerOfTen (k - 308 * steps))

/-- The double that the number stands for, or nothing where it is out of range. -/
def toBinary64? (n : Number) : Option Binary64 :=
  let s := n.significand
  let e := s.scale + n.exponent.getD 0
  let x := Binary64.ofNat s.digits
  let magnitude : Option Binary64 :=
    -- an exponent of more than 31 bits is out of range by itself, whatever the fraction
    if s.digits = 0 then some (.zero false)
    else if 308 < e ∨ Nat.pow 2 31 ≤ n.exponent.getD 0 then none
    else if 0 ≤ e then some (x.mul (.powerOfTen e.toNat))
    else some (divideByTens x (-e).toNat)
  (magnitude.filter Binary64.isFinite).map fun x => if n.negative then x.neg else x

/-- The shortest number that stands for a finite double, always with a fraction or an exponent. Its
digits stand in place if at most sixteen come in front of the point, or at most four zeros right
behind it. Else there is one digit in front of the point, and an exponent. -/
def ofBinary64 (x : Binary64) : Number :=
  let (d, p) := x.shortest
  let digits := (Nat.toDigits 10 d).map fun c => c.toNat - '0'.toNat
  -- how many digits come in front of the point, or how many zeros right behind it
  let point : Int := digits.length + p
  if 0 ≤ p ∧ point ≤ 16 then ⟨x.negative, d * Nat.pow 10 p.toNat, some [0], none⟩
  else if 0 < point ∧ point ≤ 16 then
    ⟨x.negative, d / Nat.pow 10 (-p).toNat, some (digits.drop point.toNat), none⟩
  else if -5 < point ∧ point ≤ 0 then
    ⟨x.negative, 0, some (List.replicate (-point).toNat 0 ++ digits), none⟩
  else
    let fraction := if digits.length = 1 then none else some (digits.drop 1)
    ⟨x.negative, digits.headD 0, fraction, some (point - 1)⟩

example : ofBinary64 (.ofRatio false 1234 100) = ⟨false, 12, some [3, 4], none⟩ := by decide +kernel
example : ofBinary64 (.ofRatio true 1 1000000) = ⟨true, 1, none, some (-6)⟩ := by decide +kernel

end Number
end SicDebugger
