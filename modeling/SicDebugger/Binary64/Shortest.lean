import SicDebugger.Binary64.Basic

/-!
# Shortest decimal text

Every double is the nearest one to an interval of reals around it, whose ends belong to it exactly
when its significand is even. Its decimal text has the fewest digits of any decimal in that
interval, and the decimal is the nearest of those; of two equally near the larger is taken. The
digits are written out in place, however long the run of zeros, without an exponent and without a
fraction of zero.
-/

namespace SicDebugger

namespace Binary64

/-- The interval of reals that round to a finite number other than zero, in quarters of the unit
`2 ^ -1074`: its lower end, the number itself, its upper end, and whether the ends belong to it. -/
structure Interval where
  lower : Nat
  value : Nat
  upper : Nat
  closed : Bool
deriving DecidableEq, Repr

/-- The rounding interval of a finite number other than zero. Just above a power of two the gap
below is half the gap above. -/
def interval (x : Binary64) : Interval :=
  let m := x.significand
  let w := Nat.pow 2 x.scale
  let below := if x.fractionField = 0 ∧ 1 < x.exponentField then 1 else 2
  { lower := (4 * m - below) * w
    value := 4 * m * w
    upper := (4 * m + 2) * w
    closed := m % 2 == 0 }

/-- Whether the decimal `d * 10 ^ p` lies in the interval, all measured in quarters of the unit. -/
def Interval.holds (i : Interval) (d : Nat) (p : Int) : Bool :=
  let x := d * Nat.pow 10 p.toNat * Nat.pow 2 1076
  let s := Nat.pow 10 (-p).toNat
  if i.closed then decide (i.lower * s ≤ x ∧ x ≤ i.upper * s)
  else decide (i.lower * s < x ∧ x < i.upper * s)

/-- The decimal of weight `p` in the interval that is nearest to its number, if one of the two
neighbours of the number lies in it. -/
def Interval.nearest? (i : Interval) (p : Int) : Option Nat :=
  let num := i.value * Nat.pow 10 (-p).toNat
  let den := Nat.pow 2 1076 * Nat.pow 10 p.toNat
  let d := num / den
  -- twice the distance to the decimal below, against one step
  let near := if 2 * (num % den) < den then [d, d + 1] else [d + 1, d]
  near.find? (i.holds · p)

/-- The number of decimal digits in front of the point, or one less than none for each zero that
follows the point. -/
def Interval.magnitude (i : Interval) : Int :=
  if Nat.pow 2 1076 ≤ i.value then (Nat.toDigits 10 (i.value / Nat.pow 2 1076)).length
  else
    -- the reciprocal has as many digits as the number has zeros behind the point, or one more
    let k := (Nat.toDigits 10 (Nat.pow 2 1076 / i.value)).length
    if Nat.pow 2 1076 ≤ i.value * Nat.pow 10 (k - 1) then 2 - (k : Int) else 1 - (k : Int)

/-- Fewest digits first, the decimal that reads back. -/
def Interval.shortest (i : Interval) : Nat × Int :=
  let k := i.magnitude
  let tries := (List.range 17).map fun (n : Nat) => k - 1 - n
  match tries.findSome? fun p => (i.nearest? p).map fun d => (d, p) with
  -- rounding up can reach the next power of ten, which is one digit of the next weight
  | some (d, p) => if d % 10 = 0 then (d / 10, p + 1) else (d, p)
  | none => (i.value, -1076)

/-- Coefficient and exponent of the shortest decimal of a finite number's magnitude. -/
def shortest (x : Binary64) : Nat × Int :=
  if x.isZero then (0, 0) else x.interval.shortest

/-- A decimal written out in place. -/
def positional (d : Nat) (p : Int) : List Char :=
  let digits := Nat.toDigits 10 d
  if 0 ≤ p then (if d = 0 then digits else digits ++ List.replicate p.toNat '0')
  else
    let places := (-p).toNat
    let padded := List.replicate (places + 1 - digits.length) '0' ++ digits
    padded.take (padded.length - places) ++ '.' :: padded.drop (padded.length - places)

/-- The shortest decimal text that reads back. -/
def toText (x : Binary64) : String :=
  if x.isNaN then "NaN"
  else
    let sign := if x.negative then "-" else ""
    if x.isInfinite then sign ++ "inf"
    else sign ++ String.ofList (positional x.shortest.1 x.shortest.2)

end Binary64
end SicDebugger
