import SicDebugger.Error

/-!
# Address ranges

Memory is read in ranges of addresses, both ends included, so a range is never empty and never
passes the end of the address space.
-/

namespace SicDebugger

/-- A range of addresses, both ends included. -/
structure AddressRange where
  first : UInt32
  last : UInt32
  first_le_last : first ≤ last
deriving DecidableEq, Repr

namespace AddressRange

/-- The range between two addresses, which must not be the wrong way round. -/
def between (first last : UInt32) : Except Error AddressRange :=
  if h : first ≤ last then .ok ⟨first, last, h⟩ else .error (.invalidRange first last)

/-- The range of `length` bytes at an address, if the length is a number of 32 bits other than zero
and the range ends within the address space. -/
def ofLength? (first : UInt32) (length : Nat) : Option AddressRange :=
  if h : 0 < length ∧ length < UInt32.size ∧ first.toNat + length ≤ UInt32.size then
    some {
      first
      last := UInt32.ofNat (first.toNat + (length - 1))
      first_le_last := by
        rw [UInt32.size] at h
        rw [UInt32.le_iff_toNat_le, UInt32.toNat_ofNat']
        omega }
  else none

/-- The number of addresses in the range. -/
def size (r : AddressRange) : Nat := r.last.toNat - r.first.toNat + 1

theorem size_ofLength? {first : UInt32} {length : Nat} {r : AddressRange}
    (h : ofLength? first length = some r) : r.size = length := by
  simp only [ofLength?] at h
  split at h
  · next hl =>
    cases h
    simp only [UInt32.size] at hl
    simp only [size, UInt32.toNat_ofNat']
    omega
  · cases h

end AddressRange
end SicDebugger
