import SicDebugger.Error

/-!
# Step delays

A continuous run waits between its steps. The wait is given in milliseconds as a double and
measured in nanoseconds: the seconds are the double nearest to a thousandth of it, the nanoseconds
the nearest integer to those, a tie going to the even one. There is a measure exactly if the seconds
are neither negative nor too many for 64 bits.
-/

namespace SicDebugger

/-- The nanoseconds that a number of milliseconds measures. A negative zero is zero. -/
def nanoseconds? (ms : Binary64) : Option Nat :=
  if ms.isFinite then
    let seconds := ms.div (.ofNat 1000)
    if (seconds.negative && !seconds.isZero) ||
        decide (UInt64.size * Nat.pow 2 1074 ≤ seconds.units) then
      none
    else some (Binary64.roundHalfEven (seconds.units * Nat.pow 10 9) (Nat.pow 2 1074))
  else none

/-- A wait that can be measured. -/
structure StepDelay where
  ms : Binary64
  nanos : Nat
  measured : nanoseconds? ms = some nanos
deriving DecidableEq, Repr

namespace StepDelay

/-- The wait of a number of milliseconds. -/
def ofMs (ms : Binary64) : Except Error StepDelay :=
  match h : nanoseconds? ms with
  | some nanos => .ok ⟨ms, nanos, h⟩
  | none => .error (.invalidDelay ms)

/-- The wait in milliseconds, a fraction counting as a whole one. -/
def wholeMs (d : StepDelay) : Nat := (d.nanos + (Nat.pow 10 6 - 1)) / Nat.pow 10 6

end StepDelay

example : (nanoseconds? (.ofNat 250)) = some 250000000 := by decide +kernel
example : (nanoseconds? (.zero true)) = some 0 := by decide +kernel
example : (nanoseconds? (.nan false)) = none := by decide +kernel

end SicDebugger
