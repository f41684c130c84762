import SicDebugger.Proofs.Range
import SicDebugger.Proofs.Rounding

/-!
# Exact results

A magnitude within the range of the doubles that has at most 53 significant bits is the value of a
double. Rounding leaves it as it is, so a sum, a product or a quotient of doubles is exact wherever
its exact result is such a magnitude.
-/

namespace SicDebugger

namespace Binary64

/-- A magnitude that a finite double has: it lies within the range, and its bits fit into a
significand whose last place is no lower than that of the smallest double. -/
structure Representable (q : ℚ) : Prop where
  inRange : q < 2 ^ 1024
  significand : ∃ (m : ℕ) (e : ℤ), m < 2 ^ 53 ∧ -1074 ≤ e ∧ q = m * 2 ^ e

/-- The number is finite, with the given sign and magnitude. -/
structure HasValue (x : Binary64) (negative : Bool) (q : ℚ) : Prop where
  finite : x.isFinite = true
  sign : x.negative = negative
  magnitude : x.units / 2 ^ 1074 = q

variable {x y : Binary64} {negative : Bool} {p q : ℚ} {num den m n s j : ℕ}

/-! ## Fields of a magnitude -/

lemma negative_ofMagnitude (hm : m < 2 ^ 63) : (ofMagnitude negative m).negative = negative := by
  cases negative <;>
    simp only [ofMagnitude, Binary64.negative, UInt64.toNat_ofNat', Nat.pow_eq, Bool.false_eq_true,
      ↓reduceIte, decide_eq_true_eq, decide_eq_false_iff_not] <;>
    omega

lemma fractionField_ofMagnitude :
    (ofMagnitude negative m).fractionField = m % 2 ^ 52 := by
  cases negative <;>
    simp only [ofMagnitude, fractionField, UInt64.toNat_ofNat', Nat.pow_eq, Bool.false_eq_true,
      ↓reduceIte] <;>
    omega

/-- A significand at its place is read off the magnitude. Below the hidden bit there is one place
only. -/
lemma units_ofMagnitude (hs : s < 2 ^ 53) (hplace : 2 ^ 52 ≤ s ∨ j = 0)
    (hj : j * 2 ^ 52 + s < 2047 * 2 ^ 52) :
    (ofMagnitude negative (j * 2 ^ 52 + s)).units = s * 2 ^ j := by
  have hexponent : (ofMagnitude negative (j * 2 ^ 52 + s)).exponentField =
      (j * 2 ^ 52 + s) / 2 ^ 52 := exponentField_ofMagnitude (by omega)
  rw [units, significand, scale, hexponent, fractionField_ofMagnitude, Nat.pow_eq, Nat.pow_eq]
  by_cases hhidden : s < 2 ^ 52
  · obtain rfl : j = 0 := by omega
    rw [if_pos (by omega), show (0 * 2 ^ 52 + s) % 2 ^ 52 = s by omega,
      show (0 * 2 ^ 52 + s) / 2 ^ 52 - 1 = 0 by omega]
  · rw [if_neg (by omega), show 2 ^ 52 + (j * 2 ^ 52 + s) % 2 ^ 52 = s by omega,
      show (j * 2 ^ 52 + s) / 2 ^ 52 - 1 = j by omega]

/-! ## Rounding what needs none -/

/-- A significand that is too short is shifted up to the hidden bit, as far as its place allows. -/
lemma exists_place (hm : m < 2 ^ 53) (k : ℕ) :
    ∃ s j, m * 2 ^ k = s * 2 ^ j ∧ s < 2 ^ 53 ∧ (2 ^ 52 ≤ s ∨ j = 0) := by
  induction k generalizing m with
  | zero => exact ⟨m, 0, rfl, hm, .inr rfl⟩
  | succ k ih =>
    by_cases hshort : m < 2 ^ 52
    · obtain ⟨s, j, heq, hs, hplace⟩ := ih (m := 2 * m) (by omega)
      refine ⟨s, j, ?_, hs, hplace⟩
      rw [← heq, pow_succ]
      ring
    · exact ⟨m, k + 1, rfl, hm, .inl (by omega)⟩

/-- All digits of a significand at its place are kept. -/
lemma shift_eq (hs : s < 2 ^ 53) (hplace : 2 ^ 52 ≤ s ∨ j = 0) :
    Nat.log2 (s * 2 ^ j) + 1 - 53 = j := by
  rcases hplace with hhidden | rfl
  · have hlog : Nat.log2 (s * 2 ^ j) = 52 + j := by
      rw [Nat.log2_eq_iff (Nat.mul_ne_zero (by omega) (by positivity)), Nat.pow_add,
        show 52 + j + 1 = 53 + j by omega, Nat.pow_add]
      exact ⟨Nat.mul_le_mul_right _ hhidden, Nat.mul_lt_mul_of_pos_right hs (by positivity)⟩
    omega
  · rw [pow_zero, mul_one]
    by_cases hzero : s = 0
    · rw [hzero, Nat.log2_zero]
    · have := (Nat.log2_lt hzero).mpr hs
      omega

lemma roundHalfEven_mul (hden : 0 < den) (n : ℕ) : roundHalfEven (den * n) den = n := by
  rw [roundHalfEven, Nat.mul_mod_right, Nat.mul_div_cancel_left n hden]
  exact if_pos (by omega)

/-- A quotient that is a significand at its place is rounded to just this. -/
lemma roundedMagnitude_of_count {a : ℕ} (hden : 0 < den) (hs : s < 2 ^ 53)
    (hplace : 2 ^ 52 ≤ s ∨ j = 0) (hj : j * 2 ^ 52 + s < 2047 * 2 ^ 52)
    (hcount : (num : ℚ) / den * 2 ^ a = (s * 2 ^ j : ℕ)) :
    roundedMagnitude (num * Nat.pow 2 a) den = j * 2 ^ 52 + s := by
  have hnum : num * Nat.pow 2 a = den * (s * 2 ^ j) := by
    have hcast : ((num * Nat.pow 2 a : ℕ) : ℚ) = (den * (s * 2 ^ j) : ℕ) := by
      rw [Nat.cast_mul den, ← hcount, Nat.pow_eq, Nat.cast_mul, Nat.cast_pow, Nat.cast_ofNat]
      field_simp
    exact Nat.cast_inj.mp hcast
  have hround : roundHalfEven (den * (s * 2 ^ j)) (den * 2 ^ j) = s := by
    rw [show den * (s * 2 ^ j) = den * 2 ^ j * s by ring]
    exact roundHalfEven_mul (by positivity) s
  rw [hnum, roundedMagnitude, Nat.mul_div_cancel_left _ hden]
  simp only [Nat.pow_eq, shift_eq hs hplace, hround]
  omega

/-- A magnitude that a double has is counted in units as a significand at its place. -/
lemma Representable.exists_units (h : Representable q) :
    ∃ s j : ℕ, s < 2 ^ 53 ∧ (2 ^ 52 ≤ s ∨ j = 0) ∧ j * 2 ^ 52 + s < 2047 * 2 ^ 52 ∧
      q * 2 ^ 1074 = (s * 2 ^ j : ℕ) := by
  obtain ⟨hrange, m, e, hm, he, hq⟩ := h
  obtain ⟨k, rfl⟩ : ∃ k : ℕ, e = k - 1074 := ⟨(e + 1074).toNat, by omega⟩
  obtain ⟨s, j, hplaced, hs, hplace⟩ := exists_place hm k
  have hcount : q * 2 ^ 1074 = (s * 2 ^ j : ℕ) := by
    have hpower (a : ℕ) : (2 : ℚ) ^ ((k : ℤ) - a) * 2 ^ a = 2 ^ k := by
      rw [← zpow_natCast 2 a, ← zpow_add₀ two_ne_zero, sub_add_cancel, zpow_natCast]
    rw [← hplaced, hq, mul_assoc, Nat.cast_mul, Nat.cast_pow, Nat.cast_ofNat]
    exact congrArg _ (hpower 1074)
  refine ⟨s, j, hs, hplace, ?_, hcount⟩
  rcases hplace with hhidden | rfl
  · -- the hidden bit stands below the end of the range
    have hplaces : (2 : ℚ) ^ (52 + j) < 2 ^ (1024 + 1074) := by
      calc (2 : ℚ) ^ (52 + j) = (2 ^ 52 * 2 ^ j : ℕ) := by
            rw [pow_add, Nat.cast_mul, Nat.cast_pow, Nat.cast_pow, Nat.cast_ofNat]
        _ ≤ (s * 2 ^ j : ℕ) := Nat.cast_le.mpr (Nat.mul_le_mul_right _ hhidden)
        _ = q * 2 ^ 1074 := hcount.symm
        _ < 2 ^ 1024 * 2 ^ 1074 := mul_lt_mul_of_pos_right hrange (pow_pos two_pos _)
        _ = 2 ^ (1024 + 1074) := (pow_add ..).symm
    have := (pow_lt_pow_iff_right₀ one_lt_two).mp hplaces
    omega
  · omega

/-- **A quotient that a double has as its value is its own nearest double.** -/
theorem hasValue_ofRatio (hden : 0 < den) (hq : (num : ℚ) / den = q) (h : Representable q) :
    HasValue (ofRatio negative num den) negative q := by
  obtain ⟨s, j, hs, hplace, hj, hcount⟩ := h.exists_units
  have hmagnitude : roundedMagnitude (num * Nat.pow 2 1074) den = j * 2 ^ 52 + s := by
    apply roundedMagnitude_of_count hden hs hplace hj
    rw [hq, hcount]
  rw [ofRatio, hmagnitude]
  refine ⟨isFinite_ofMagnitude hj, negative_ofMagnitude (by omega), ?_⟩
  rw [units_ofMagnitude hs hplace hj, ← hcount, mul_div_cancel_right₀ _ (pow_pos two_pos _).ne']

/-- A quotient by a power of two, as sums and products have it. -/
lemma hasValue_ofRatio_powTwo {a : ℕ} (hq : (num : ℚ) / 2 ^ a = q) (h : Representable q) :
    HasValue (ofRatio negative num (Nat.pow 2 a)) negative q := by
  refine hasValue_ofRatio (Nat.pow_pos (by decide)) ?_ h
  rw [Nat.pow_eq, Nat.cast_pow, Nat.cast_ofNat, hq]

/-! ## Operations -/

/-- A natural number of a few bits, moved to a place within the range. -/
lemma representable_scaled {b : ℕ} {e : ℤ} (hm : m < 2 ^ b) (hb : b ≤ 53) (hlow : -1074 ≤ e)
    (hhigh : b + e ≤ 1024) : Representable (m * 2 ^ e) where
  inRange := by
    calc (m : ℚ) * 2 ^ e < (2 ^ b : ℕ) * 2 ^ e :=
          mul_lt_mul_of_pos_right (Nat.cast_lt.mpr hm) (zpow_pos two_pos e)
      _ = 2 ^ (b + e) := by
          rw [zpow_add₀ two_ne_zero, zpow_natCast, Nat.cast_pow, Nat.cast_ofNat]
      _ ≤ 2 ^ (1024 : ℤ) := zpow_le_zpow_right₀ one_le_two hhigh
  significand := ⟨m, e, hm.trans_le (Nat.pow_le_pow_right two_pos hb), hlow, rfl⟩

/-- A natural number of 53 bits is converted exactly. -/
lemma hasValue_ofNat (hn : n < 2 ^ 53) : HasValue (ofNat n) false n := by
  have hrepresentable := representable_scaled (e := 0) hn le_rfl (by decide) (by decide)
  rw [zpow_zero, mul_one] at hrepresentable
  exact hasValue_ofRatio one_pos (by simp) hrepresentable

/-- A power of two within the range is exact. -/
lemma hasValue_powerOfTwo {k : ℤ} (hlow : -1074 ≤ k) (hhigh : k < 1024) :
    HasValue (powerOfTwo k) false (2 ^ k) := by
  have hrepresentable := representable_scaled (by decide : 1 < 2 ^ 1) (by decide) hlow (by omega)
  rw [Nat.cast_one, one_mul] at hrepresentable
  refine hasValue_ofRatio_powTwo ?_ hrepresentable
  rw [one_mul, Nat.pow_eq, Nat.cast_pow, Nat.cast_ofNat, ← zpow_natCast, ← zpow_natCast,
    ← zpow_sub₀ two_ne_zero]
  congr 1
  omega

namespace HasValue

variable {i j : Bool}

lemma value_eq (h : HasValue x negative q) : x.value = (-1) ^ negative.toNat * q := by
  rw [value, h.sign, h.magnitude]

lemma units_eq (h : HasValue x negative q) : (x.units : ℚ) = q * 2 ^ 1074 := by
  rw [← h.magnitude, div_mul_cancel₀ _ (pow_pos two_pos _).ne']

/-- A quotient is exact if a double has it as its value. -/
lemma div (hx : HasValue x i p) (hy : HasValue y j q) (hq : 0 < q) (h : Representable (p / q)) :
    HasValue (x.div y) (i != j) (p / q) := by
  have hunit : (0 : ℚ) < 2 ^ 1074 := pow_pos two_pos _
  have hpos : (0 : ℚ) < y.units := by
    rw [hy.units_eq]
    exact mul_pos hq hunit
  rw [Binary64.div, hx.sign, hy.sign]
  refine hasValue_ofRatio (Nat.cast_pos.mp hpos) ?_ h
  rw [hx.units_eq, hy.units_eq, mul_div_mul_right _ _ hunit.ne']

/-- A product is exact if a double has it as its value. -/
lemma mul (hx : HasValue x i p) (hy : HasValue y j q) (h : Representable (p * q)) :
    HasValue (x.mul y) (i != j) (p * q) := by
  have hsquare (a : ℕ) : p * 2 ^ a * (q * 2 ^ a) / 2 ^ (a + a) = p * q := by
    rw [pow_add]
    field_simp
  rw [Binary64.mul, hx.sign, hy.sign]
  apply hasValue_ofRatio_powTwo
  · rw [Nat.cast_mul, hx.units_eq, hy.units_eq]
    exact hsquare 1074
  · exact h

/-- A sum of two numbers of one sign is exact if a double has it as its value. -/
lemma add (hx : HasValue x i p) (hy : HasValue y i q) (h : Representable (p + q)) :
    HasValue (x.add y) i (p + q) := by
  have hmagnitude : (x.signedUnits + y.signedUnits).natAbs = x.units + y.units := by
    rw [signedUnits, signedUnits, hx.sign, hy.sign]
    cases i <;> simp only [↓reduceIte, Bool.false_eq_true] <;> omega
  have hsign : (if x.signedUnits + y.signedUnits = 0 then x.negative && y.negative
      else decide (x.signedUnits + y.signedUnits < 0)) = i := by
    rw [signedUnits, signedUnits, hx.sign, hy.sign]
    cases i
    · simp only [Bool.false_eq_true, ↓reduceIte, Bool.and_false, ite_eq_left_iff,
        decide_eq_false_iff_not]
      omega
    · simp only [↓reduceIte, Bool.and_true, ite_eq_left_iff, decide_eq_true_eq]
      omega
  rw [Binary64.add, hmagnitude, hsign]
  apply hasValue_ofRatio_powTwo
  · rw [Nat.cast_add, add_div, hx.magnitude, hy.magnitude]
  · exact h

/-- Turning the sign leaves the magnitude. -/
lemma neg (h : HasValue x i q) : HasValue x.neg (!i) q := by
  have hmagnitude : x.bits.toNat % Nat.pow 2 63 < 2 ^ 63 := Nat.mod_lt _ (by decide)
  have hexponent : x.neg.exponentField = x.exponentField := by
    rw [Binary64.neg, exponentField_ofMagnitude hmagnitude, exponentField]
    simp only [Nat.pow_eq]
    omega
  have hfraction : x.neg.fractionField = x.fractionField := by
    rw [Binary64.neg, fractionField_ofMagnitude, fractionField]
    simp only [Nat.pow_eq]
    omega
  refine ⟨?_, ?_, ?_⟩
  · rw [isFinite, hexponent]
    exact h.finite
  · rw [Binary64.neg, negative_ofMagnitude hmagnitude, h.sign]
  · rw [units, significand, scale, hexponent, hfraction]
    exact h.magnitude

end HasValue

end Binary64
end SicDebugger
