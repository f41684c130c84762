import SicDebugger.Proofs.ExactResults
import Mathlib.Algebra.Order.Field.Power
import Mathlib.Tactic.IntervalCases
import Mathlib.Tactic.Linarith

/-!
# Decoding

A pattern whose exponent is one of a normal double is decoded without rounding: its significand has
33 bits, so every step of the arithmetic is exact. Encoding the double gives the pattern back, since
of all patterns it is the one nearest to its own value.
-/

namespace SicDebugger

namespace Binary64

variable {x : Binary64}

lemma value_of_isZero (h : x.isZero = true) : x.value = 0 := by
  simp only [isZero, Bool.and_eq_true, beq_iff_eq] at h
  rw [value, units, significand, if_pos h.1, h.2]
  simp

lemma abs_value (x : Binary64) : |x.value| = x.units / 2 ^ 1074 := by
  rw [value, abs_mul, abs_neg_one_pow, one_mul, abs_of_nonneg (by positivity)]

lemma abs_value_of_units {n k : ℕ} (h : x.units = n * 2 ^ (k + 1074)) : |x.value| = n * 2 ^ k := by
  rw [x.abs_value, h, Nat.cast_mul, Nat.cast_pow, Nat.cast_ofNat, pow_add, ← mul_assoc,
    mul_div_cancel_right₀ _ (pow_pos two_pos _).ne']

/-- The magnitude of a finite number lies within the range. -/
lemma abs_value_lt (h : x.isFinite = true) : |x.value| < 2 ^ 1024 := by
  have hexponent : x.exponentField < 2047 := by
    have : x.exponentField < 2048 := Nat.mod_lt _ (by decide)
    have : x.exponentField ≠ 2047 := by simpa [isFinite] using h
    omega
  have hfraction : x.fractionField < 2 ^ 52 := Nat.mod_lt _ (by decide)
  have hsignificand : x.significand < 2 ^ 53 := by
    rw [significand, Nat.pow_eq]
    split <;> omega
  have hunits {k : ℕ} (hk : 53 + x.scale ≤ k) : (x.units : ℚ) < 2 ^ k := by
    have hlt : x.units < 2 ^ k := by
      calc x.units < 2 ^ 53 * 2 ^ x.scale :=
            Nat.mul_lt_mul_of_pos_right hsignificand (Nat.pow_pos (by decide))
        _ = 2 ^ (53 + x.scale) := (pow_add ..).symm
        _ ≤ 2 ^ k := Nat.pow_le_pow_right (by decide) hk
    exact_mod_cast hlt
  rw [x.abs_value, div_lt_iff₀ (pow_pos two_pos _), ← pow_add]
  exact hunits (by rw [scale]; omega)

/-- The normal numbers are those from `2 ^ -1022` on. -/
lemma le_abs_value (h : 0 < x.exponentField) : 2 ^ (-1022 : ℤ) ≤ |x.value| := by
  have hunits : 2 ^ 52 ≤ x.units := by
    have hsignificand : 2 ^ 52 ≤ x.significand := by
      rw [significand, if_neg h.ne', Nat.pow_eq]
      omega
    exact hsignificand.trans (Nat.le_mul_of_pos_right _ (Nat.pow_pos (by decide)))
  have hpower : (2 : ℚ) ^ (-1022 : ℤ) * 2 ^ 1074 = (2 ^ 52 : ℕ) := by
    rw [← zpow_natCast 2 1074, ← zpow_add₀ two_ne_zero]
    norm_num
  rw [x.abs_value, le_div_iff₀ (pow_pos two_pos _), hpower]
  exact_mod_cast hunits

end Binary64

namespace Float48

open Binary64 (HasValue Representable hasValue_ofNat hasValue_powerOfTwo representable_scaled)

variable {x : Binary64} {f g : Fields} {raw : UInt64} {n : ℕ}

/-! ## Magnitudes of patterns -/

lemma Fields.abs_value (f : Fields) :
    |f.value| = (1 + f.fraction / 2 ^ 32) * 2 ^ ((f.exponent : ℤ) - 16383) := by
  rw [Fields.value, abs_mul, abs_neg_one_pow, one_mul, abs_of_pos (by positivity)]

lemma Fields.value_eq_abs (f : Fields) : f.value = (-1) ^ f.sign * |f.value| := by
  rw [f.abs_value, Fields.value]

lemma Fields.abs_value_pos (f : Fields) : 0 < |f.value| := by
  rw [f.abs_value]
  positivity

/-- The magnitude of a pattern reaches every power of two up to its own. -/
lemma Fields.le_abs_value (h : n ≤ f.exponent) : 2 ^ ((n : ℤ) - 16383) ≤ |f.value| := by
  have hpower : (2 : ℚ) ^ ((n : ℤ) - 16383) ≤ 2 ^ ((f.exponent : ℤ) - 16383) :=
    zpow_le_zpow_right₀ one_le_two (by omega)
  have hfraction : (0 : ℚ) ≤ f.fraction / 2 ^ 32 := by positivity
  rw [f.abs_value]
  exact hpower.trans (le_mul_of_one_le_left (by positivity) (by linarith))

/-- The magnitude of a pattern does not go past the largest one with a given exponent. -/
lemma Fields.abs_value_le (hf : f.InRange) (h : f.exponent ≤ n) :
    |f.value| ≤ (2 - 1 / 2 ^ 32) * 2 ^ ((n : ℤ) - 16383) := by
  have hfraction : (f.fraction : ℚ) ≤ 2 ^ 32 - 1 := by
    have : f.fraction + 1 ≤ 2 ^ 32 := hf.fraction
    rw [le_sub_iff_add_le]
    exact_mod_cast this
  have hpower : (2 : ℚ) ^ ((f.exponent : ℤ) - 16383) ≤ 2 ^ ((n : ℤ) - 16383) :=
    zpow_le_zpow_right₀ one_le_two (by omega)
  rw [f.abs_value]
  refine mul_le_mul ?_ hpower (by positivity) (by norm_num)
  rw [← le_sub_iff_add_le', div_le_iff₀ (by positivity)]
  linarith

/-- A larger exponent is a larger magnitude. -/
lemma Fields.abs_value_lt (hf : f.InRange) (h : f.exponent < g.exponent) :
    |f.value| < |g.value| := by
  have hpower : (0 : ℚ) < 2 ^ ((f.exponent : ℤ) - 16383) := zpow_pos two_pos _
  calc |f.value| ≤ (2 - 1 / 2 ^ 32) * 2 ^ ((f.exponent : ℤ) - 16383) := Fields.abs_value_le hf le_rfl
    _ < 2 * 2 ^ ((f.exponent : ℤ) - 16383) := mul_lt_mul_of_pos_right (by norm_num) hpower
    _ = 2 ^ (((f.exponent + 1 : ℕ) : ℤ) - 16383) := by
        rw [← zpow_one_add₀ two_ne_zero]
        congr 1
        push_cast
        ring
    _ ≤ |g.value| := Fields.le_abs_value h

/-- No two patterns have the same value. -/
lemma Fields.value_inj (hf : f.InRange) (hg : g.InRange) (h : f.value = g.value) : f = g := by
  have hexponent : f.exponent = g.exponent := by
    have habs := congrArg abs h
    rcases Nat.lt_trichotomy f.exponent g.exponent with hlt | heq | hgt
    · exact absurd habs (Fields.abs_value_lt hf hlt).ne
    · exact heq
    · exact absurd habs (Fields.abs_value_lt hg hgt).ne'
  have hfraction : f.fraction = g.fraction := by
    have habs := congrArg abs h
    rw [f.abs_value, g.abs_value, hexponent] at habs
    have hsum := mul_right_cancel₀ (zpow_pos two_pos _).ne' habs
    rw [add_right_inj, div_left_inj' (by positivity)] at hsum
    exact_mod_cast hsum
  have hsign : f.sign = g.sign := by
    rw [Fields.value, Fields.value, hexponent, hfraction] at h
    have hpower := mul_right_cancel₀ (by positivity) h
    have := hf.sign
    have := hg.sign
    interval_cases f.sign <;> interval_cases g.sign <;> first | rfl | norm_num at hpower
  rw [show f = ⟨f.sign, f.exponent, f.fraction⟩ from rfl, hsign, hexponent, hfraction]

/-! ## Decoding -/

/-- A significand at its place is a natural number of 33 bits at a place 32 bits below. -/
lemma significand_scaled (n : ℕ) (k : ℤ) :
    (1 + n / 2 ^ 32 : ℚ) * 2 ^ k = (2 ^ 32 + n : ℕ) * 2 ^ (k - 32) := by
  rw [zpow_sub₀ two_ne_zero, zpow_ofNat, Nat.cast_add, Nat.cast_pow, Nat.cast_ofNat]
  field_simp

/-- The significand of a pattern, its hidden one included, is exact. -/
lemma hasValue_significand (hn : n < 2 ^ 32) :
    HasValue ((Binary64.ofNat 1).add ((Binary64.ofNat n).div (.ofNat (Nat.pow 2 32)))) false
      (1 + n / 2 ^ 32) := by
  have hone := hasValue_ofNat (by decide : 1 < 2 ^ 53)
  have hpower := hasValue_ofNat (by decide : Nat.pow 2 32 < 2 ^ 53)
  rw [Nat.cast_one] at hone
  rw [Nat.pow_eq, Nat.cast_pow, Nat.cast_ofNat] at hpower
  have hquotient : HasValue ((Binary64.ofNat n).div (.ofNat (Nat.pow 2 32))) false
      (n / 2 ^ 32) := by
    refine (hasValue_ofNat (by omega)).div hpower (by positivity) ?_
    rw [div_eq_mul_inv, ← zpow_ofNat, ← zpow_neg]
    exact representable_scaled hn (by decide) (by decide) (by decide)
  refine hone.add hquotient ?_
  have hsum := significand_scaled n 0
  rw [zpow_zero, mul_one] at hsum
  rw [hsum]
  exact representable_scaled (by omega : 2 ^ 32 + n < 2 ^ 33) (by decide) (by decide) (by decide)

/-- A pattern with the exponent of a normal double is decoded without rounding. -/
lemma hasValue_decode (hlow : 15361 ≤ (fields raw).exponent)
    (hhigh : (fields raw).exponent ≤ 17406) :
    HasValue (decode raw) ((fields raw).sign == 1) |(fields raw).value| := by
  have hrange := inRange_fields raw
  have hpower := hasValue_powerOfTwo (k := ((fields raw).exponent : ℤ) - 16383) (by omega) (by omega)
  have hmagnitude : Representable |(fields raw).value| := by
    rw [Fields.abs_value, significand_scaled]
    exact representable_scaled (by have := hrange.fraction; omega : _ < 2 ^ 33) (by decide)
      (by omega) (by omega)
  rw [Fields.abs_value] at hmagnitude ⊢
  have hproduct := (hasValue_significand hrange.fraction).mul hpower hmagnitude
  rw [decode]
  dsimp only
  rw [if_neg (by omega)]
  split
  case isTrue hsign =>
    rw [hsign]
    exact hproduct.neg
  case isFalse hsign =>
    rw [beq_false_of_ne hsign]
    exact hproduct

/-- A double with the value of a pattern is encoded as this pattern. -/
lemma encode_of_value (hfinite : x.isFinite = true) (hf : f.InRange) (h : x.value = f.value) :
    encode x = ofFields f := by
  have hzero : x.isZero = false := by
    by_contra hzero
    have hvalue := Binary64.value_of_isZero (Bool.not_eq_false _ ▸ hzero)
    rw [h] at hvalue
    exact f.abs_value_pos.ne' (abs_eq_zero.mpr hvalue)
  obtain ⟨g, k, s, hencode, hg, hsign, -, -, hs, hx, hunits⟩ := exists_encode_eq hfinite hzero
  have hnearest := (rounds_of_units hsign hs hx hunits).nearest (ofFields f)
  rw [fields_ofFields hf, h, sub_self, abs_zero, abs_nonpos_iff, sub_eq_zero] at hnearest
  rw [hencode, Fields.value_inj hg hf hnearest.symm]

lemma value_decode (hlow : 15361 ≤ (fields raw).exponent)
    (hhigh : (fields raw).exponent ≤ 17406) : (decode raw).value = (fields raw).value := by
  have hsign : ((fields raw).sign == 1).toNat = (fields raw).sign := by
    have := (inRange_fields raw).sign
    interval_cases (fields raw).sign <;> rfl
  rw [(hasValue_decode hlow hhigh).value_eq, hsign, ← Fields.value_eq_abs]

lemma encode_decode_of_normal (hraw : raw.toNat < 2 ^ 48) (hlow : 15361 ≤ (fields raw).exponent)
    (hhigh : (fields raw).exponent ≤ 17406) : encode (decode raw) = raw := by
  rw [encode_of_value (hasValue_decode hlow hhigh).finite (inRange_fields raw)
    (value_decode hlow hhigh), ofFields_fields hraw]

/-- **Encoding undoes decoding on the range of the normal doubles.** A pattern whose exponent lies
there is decoded to its exact value, and the double encodes back to it. So does the zero. -/
theorem encode_decode :
    (∀ raw : UInt64, raw.toNat < 2 ^ 48 → 15361 ≤ (fields raw).exponent →
      (fields raw).exponent ≤ 17406 →
      (decode raw).isFinite = true ∧ (decode raw).value = (fields raw).value ∧
        encode (decode raw) = raw) ∧
    decode 0 = .zero false ∧ encode (decode 0) = 0 := by
  refine ⟨?_, by decide, by decide⟩
  intro raw hraw hlow hhigh
  exact ⟨(hasValue_decode hlow hhigh).finite, value_decode hlow hhigh,
    encode_decode_of_normal hraw hlow hhigh⟩

/-- The first and the last exponent of the normal doubles, with fractions that use the last bit. -/
theorem ends_of_the_normal_range_decoded :
    (0xBC0100000001 : UInt64).toNat < 2 ^ 48 ∧ (fields 0xBC0100000001).exponent = 15361 ∧
    (decode 0xBC0100000001).value = (fields 0xBC0100000001).value ∧
    encode (decode 0xBC0100000001) = 0xBC0100000001 ∧
    (0x43FEFFFFFFFF : UInt64).toNat < 2 ^ 48 ∧ (fields 0x43FEFFFFFFFF).exponent = 17406 ∧
    decode 0x43FEFFFFFFFF = .mk 0x7FEFFFFFFFF00000 ∧
    encode (decode 0x43FEFFFFFFFF) = 0x43FEFFFFFFFF := by
  obtain ⟨hnormal, -⟩ := encode_decode
  obtain ⟨-, hvalue, hfirst⟩ := hnormal 0xBC0100000001 (by decide) (by decide) (by decide)
  obtain ⟨-, -, hlast⟩ := hnormal 0x43FEFFFFFFFF (by decide) (by decide) (by decide)
  exact ⟨by decide, by decide, hvalue, hfirst, by decide, by decide, by decide +kernel, hlast⟩

/-! ## Decoding what was encoded -/

/-- Values of one sign are as far apart as their magnitudes. -/
lemma abs_sub_value (h : f.sign = x.negative.toNat) :
    |x.value - f.value| = |(|x.value| - |f.value|)| := by
  have hx : x.value = (-1) ^ x.negative.toNat * |x.value| := by rw [x.abs_value, Binary64.value]
  calc |x.value - f.value|
      = |(-1) ^ x.negative.toNat * (|x.value| - |f.value|)| := by
        rw [mul_sub, ← hx, ← h, ← f.value_eq_abs]
    _ = |(|x.value| - |f.value|)| := by rw [abs_mul, abs_neg_one_pow, one_mul]

/-- Rounding a significand of 53 bits to 33 changes the magnitude by a small part of it only. -/
lemma abs_sub_halfUp_le {s : ℕ} (hs : 2 ^ 52 ≤ s) (k w : ℕ) :
    |((s * 2 ^ k : ℕ) : ℚ) / 2 ^ w - (halfUp s * 2 ^ (k + 20) : ℕ) / 2 ^ w| ≤
      2 ^ (-33 : ℤ) * ((s * 2 ^ k : ℕ) / 2 ^ w) := by
  have hunit : (0 : ℚ) ≤ 2 ^ k / 2 ^ w := by positivity
  have hplace : ((s * 2 ^ k : ℕ) : ℚ) / 2 ^ w = s * (2 ^ k / 2 ^ w) := by
    rw [Nat.cast_mul, Nat.cast_pow, Nat.cast_ofNat, mul_div_assoc]
  have hrounded : ((halfUp s * 2 ^ (k + 20) : ℕ) : ℚ) / 2 ^ w =
      halfUp s * 2 ^ 20 * (2 ^ k / 2 ^ w) := by
    rw [Nat.cast_mul, Nat.cast_pow, Nat.cast_ofNat, pow_add]
    ring
  have hhalf : |(s : ℚ) - halfUp s * 2 ^ 20| ≤ 2 ^ 19 := by
    have hcount : |(s : ℤ) - halfUp s * 2 ^ 20| ≤ 2 ^ 19 := by
      unfold halfUp
      exact abs_le.mpr ⟨by omega, by omega⟩
    -- the exponents are kept general, so that the powers are not computed
    have hcast {m a b : ℕ} (h : |(s : ℤ) - m * 2 ^ a| ≤ 2 ^ b) : |(s : ℚ) - m * 2 ^ a| ≤ 2 ^ b := by
      exact_mod_cast h
    exact hcast hcount
  have hlarge : (2 ^ 52 : ℚ) ≤ s := by
    calc (2 ^ 52 : ℚ) = (2 ^ 52 : ℕ) := by rw [Nat.cast_pow, Nat.cast_ofNat]
      _ ≤ s := Nat.cast_le.mpr hs
  rw [hplace, hrounded, ← sub_mul, abs_mul, abs_of_nonneg hunit, ← mul_assoc]
  refine mul_le_mul_of_nonneg_right (hhalf.trans ?_) hunit
  rw [zpow_neg, zpow_ofNat, inv_mul_eq_div, le_div_iff₀ (by positivity)]
  linarith

/-- The pattern of a finite double other than zero has its sign, rounds it, and is near to it. -/
lemma exists_rounds (hfinite : x.isFinite = true) (hzero : x.isZero = false) :
    ∃ f, encode x = ofFields f ∧ f.InRange ∧ f.sign = x.negative.toNat ∧ Rounds x f ∧
      |(|x.value| - |f.value|)| ≤ 2 ^ (-33 : ℤ) * |x.value| := by
  obtain ⟨f, k, s, hencode, hf, hsign, -, -, hs, hx, hunits⟩ := exists_encode_eq hfinite hzero
  refine ⟨f, hencode, hf, hsign, rounds_of_units hsign hs hx hunits, ?_⟩
  rw [x.value_eq, f.value_eq, abs_signed, abs_signed, hx, hunits]
  exact abs_sub_halfUp_le hs k 16415

section

variable (hrounds : Rounds x f) (hsign : f.sign = x.negative.toNat) (hg : g.InRange)
  (hgsign : g.sign = x.negative.toNat)

include hrounds hsign hg hgsign

/-- No pattern of the same sign has a nearer magnitude, and one that is as near is no larger. -/
lemma Rounds.nearest_abs : |(|x.value| - |f.value|)| ≤ |(|x.value| - |g.value|)| ∧
    (|(|x.value| - |g.value|)| = |(|x.value| - |f.value|)| → |g.value| ≤ |f.value|) := by
  have hnearest := hrounds.nearest (ofFields g)
  have haway := hrounds.away (ofFields g)
  rw [fields_ofFields hg] at hnearest haway
  rw [← abs_sub_value hsign, ← abs_sub_value hgsign]
  exact ⟨hnearest, haway⟩

/-- Rounding does not fall below a pattern that the number reaches. -/
lemma Rounds.le_abs (h : |g.value| ≤ |x.value|) : |g.value| ≤ |f.value| := by
  obtain ⟨hnearest, -⟩ := hrounds.nearest_abs hsign hg hgsign
  rw [abs_of_nonneg (sub_nonneg.mpr h)] at hnearest
  have := (le_abs_self _).trans hnearest
  linarith

/-- Rounding does not pass a pattern that the number does not pass. -/
lemma Rounds.abs_le (h : |x.value| ≤ |g.value|) : |f.value| ≤ |g.value| := by
  obtain ⟨hnearest, -⟩ := hrounds.nearest_abs hsign hg hgsign
  rw [abs_of_nonpos (sub_nonpos.mpr h)] at hnearest
  have := (neg_le_abs _).trans hnearest
  linarith

/-- Below the middle between two patterns rounding stays below the higher one. -/
lemma Rounds.abs_lt_of_lt_middle {high : Fields} (hlt : |g.value| < |high.value|)
    (h : |x.value| < (|g.value| + |high.value|) / 2) : |f.value| < |high.value| := by
  rcases le_total |x.value| |g.value| with hle | hge
  · exact (hrounds.abs_le hsign hg hgsign hle).trans_lt hlt
  · obtain ⟨hnearest, -⟩ := hrounds.nearest_abs hsign hg hgsign
    rw [abs_of_nonneg (sub_nonneg.mpr hge)] at hnearest
    have := (neg_le_abs _).trans hnearest
    linarith

/-- From the middle between two neighbours on, rounding reaches the higher one. -/
lemma Rounds.le_abs_of_middle_le {low : Fields}
    (hneighbours : |f.value| ≤ |low.value| ∨ |g.value| ≤ |f.value|)
    (h : (|low.value| + |g.value|) / 2 ≤ |x.value|) : |g.value| ≤ |f.value| := by
  rcases hneighbours with hbelow | hreached
  · rcases le_total |g.value| |x.value| with hle | hge
    · exact hrounds.le_abs hsign hg hgsign hle
    · -- the higher one is then as near as the one that was taken, and larger
      obtain ⟨hnearest, haway⟩ := hrounds.nearest_abs hsign hg hgsign
      refine haway (le_antisymm ?_ hnearest)
      rw [abs_of_nonpos (sub_nonpos.mpr hge)]
      refine le_trans ?_ (le_abs_self _)
      linarith
  · exact hreached

end

/-! ## The ends of the normal range -/

lemma zpow_bias_add (k : ℕ) : (2 : ℚ) ^ (((16383 + k : ℕ) : ℤ) - 16383) = 2 ^ k := by
  rw [Nat.cast_add, Nat.cast_ofNat, add_sub_cancel_left, zpow_natCast]

/-- The least pattern with the exponent of a normal double. -/
def leastNormal (negative : Bool) : Fields := ⟨negative.toNat, 15361, 0⟩

/-- The largest pattern with the exponent of a normal double. -/
def largestNormal (negative : Bool) : Fields := ⟨negative.toNat, 17406, 2 ^ 32 - 1⟩

/-- The pattern after the largest one with the exponent of a normal double. -/
def beyondNormal (negative : Bool) : Fields := ⟨negative.toNat, 17407, 0⟩

lemma inRange_leastNormal (negative : Bool) : (leastNormal negative).InRange :=
  ⟨negative.toNat_lt, by simp [leastNormal], by simp [leastNormal]⟩

lemma inRange_largestNormal (negative : Bool) : (largestNormal negative).InRange :=
  ⟨negative.toNat_lt, by simp [largestNormal], by simp [largestNormal]⟩

lemma inRange_beyondNormal (negative : Bool) : (beyondNormal negative).InRange :=
  ⟨negative.toNat_lt, by simp [beyondNormal], by simp [beyondNormal]⟩

lemma abs_value_leastNormal (negative : Bool) :
    |(leastNormal negative).value| = 2 ^ (-1022 : ℤ) := by
  rw [Fields.abs_value]
  simp [leastNormal]

lemma abs_value_largestNormal (negative : Bool) :
    |(largestNormal negative).value| = (2 - 1 / 2 ^ 32) * 2 ^ 1023 := by
  have hpower : ((largestNormal negative).exponent : ℤ) = (16383 + 1023 : ℕ) := rfl
  have hfraction : 1 + ((largestNormal negative).fraction : ℚ) / 2 ^ 32 = 2 - 1 / 2 ^ 32 := by
    norm_num [largestNormal]
  rw [Fields.abs_value, hpower, zpow_bias_add, hfraction]

lemma abs_value_beyondNormal (negative : Bool) : |(beyondNormal negative).value| = 2 ^ 1024 := by
  have hpower : ((beyondNormal negative).exponent : ℤ) = (16383 + 1024 : ℕ) := rfl
  have hfraction : 1 + ((beyondNormal negative).fraction : ℚ) / 2 ^ 32 = 1 := by
    norm_num [beyondNormal]
  rw [Fields.abs_value, hpower, zpow_bias_add, hfraction, one_mul]

/-- No pattern lies between the two. -/
lemma le_largestNormal_or_beyondNormal_le (hf : f.InRange) (negative : Bool) :
    f.exponent ≤ 17406 ∧ |f.value| ≤ |(largestNormal negative).value| ∨
      |(beyondNormal negative).value| ≤ |f.value| := by
  rcases Nat.lt_or_ge 17406 f.exponent with hlt | hge
  · right
    rw [abs_value_beyondNormal, ← zpow_bias_add 1024]
    exact Fields.le_abs_value hlt
  · left
    refine ⟨hge, ?_⟩
    rw [abs_value_largestNormal, ← zpow_bias_add 1023]
    exact Fields.abs_value_le hf hge

/-- The middle between the largest pattern with the exponent of a normal double and the next one. -/
lemma middle_beyondNormal (negative : Bool) :
    (|(largestNormal negative).value| + |(beyondNormal negative).value|) / 2 =
      (2 - 2 ^ (-33 : ℤ)) * 2 ^ 1023 := by
  rw [abs_value_largestNormal, abs_value_beyondNormal, pow_succ _ 1023]
  generalize (2 : ℚ) ^ 1023 = p
  rw [zpow_neg, zpow_ofNat]
  ring

section

variable (hrounds : Rounds x f) (hf : f.InRange) (hsign : f.sign = x.negative.toNat)

include hrounds hf hsign

/-- A number that reaches the smallest normal double is rounded to an exponent from there on. -/
lemma Rounds.le_exponent (h : 2 ^ (-1022 : ℤ) ≤ |x.value|) : 15361 ≤ f.exponent := by
  by_contra hlt
  rw [← abs_value_leastNormal x.negative] at h
  have hle := hrounds.le_abs hsign (inRange_leastNormal _) rfl h
  exact hle.not_gt (Fields.abs_value_lt hf (not_le.mp hlt))

/-- A number below the middle is rounded to an exponent of the normal doubles. -/
lemma Rounds.exponent_le (h : |x.value| < (2 - 2 ^ (-33 : ℤ)) * 2 ^ 1023) :
    f.exponent ≤ 17406 := by
  have hneighbours : |(largestNormal x.negative).value| < |(beyondNormal x.negative).value| :=
    Fields.abs_value_lt (inRange_largestNormal _) (Nat.lt_succ_self 17406)
  rw [← middle_beyondNormal x.negative] at h
  have hbelow := hrounds.abs_lt_of_lt_middle hsign (inRange_largestNormal _) rfl hneighbours h
  rcases le_largestNormal_or_beyondNormal_le hf x.negative with ⟨hle, -⟩ | hreached
  · exact hle
  · exact absurd hreached hbelow.not_ge

/-- From the middle on a number is rounded to the pattern beyond the normal doubles. -/
lemma Rounds.eq_beyondNormal (hfinite : x.isFinite = true)
    (h : (2 - 2 ^ (-33 : ℤ)) * 2 ^ 1023 ≤ |x.value|) : f = beyondNormal x.negative := by
  rw [← middle_beyondNormal x.negative] at h
  have hreached := hrounds.le_abs_of_middle_le hsign (inRange_beyondNormal _) rfl
    ((le_largestNormal_or_beyondNormal_le hf x.negative).imp_left And.right) h
  have hkept := hrounds.abs_le hsign (inRange_beyondNormal x.negative) rfl
    ((Binary64.abs_value_lt hfinite).le.trans_eq (abs_value_beyondNormal _).symm)
  refine Fields.value_inj hf (inRange_beyondNormal _) ?_
  rw [f.value_eq_abs, (beyondNormal x.negative).value_eq_abs, hsign, le_antisymm hkept hreached]
  rfl

end

/-- The pattern beyond the normal doubles is decoded to an infinity. -/
lemma decode_beyondNormal (negative : Bool) :
    decode (ofFields (beyondNormal negative)) = .infinity negative := by
  cases negative <;> decide +kernel

/-- **What was encoded is decoded closely.** A normal double below the middle between the last
pattern with the exponent of a double and the next one is decoded to a finite double, which is off
by one part in `2 ^ 33` at most and has the same pattern. One from the middle on is encoded as that
next pattern, which stands for `2 ^ 1024`, and decoded to an infinity. -/
theorem decode_encode :
    ∀ x : Binary64, x.isFinite = true → 2 ^ (-1022 : ℤ) ≤ |x.value| →
      (|x.value| < (2 - 2 ^ (-33 : ℤ)) * 2 ^ 1023 →
        (decode (encode x)).isFinite = true ∧
        |(decode (encode x)).value - x.value| ≤ 2 ^ (-33 : ℤ) * |x.value| ∧
        encode (decode (encode x)) = encode x) ∧
      ((2 - 2 ^ (-33 : ℤ)) * 2 ^ 1023 ≤ |x.value| →
        fields (encode x) = ⟨x.negative.toNat, 17407, 0⟩ ∧
        decode (encode x) = .infinity x.negative) := by
  intro x hfinite hnormal
  have hzero : x.isZero = false := by
    by_contra hzero
    rw [Binary64.value_of_isZero (Bool.not_eq_false _ ▸ hzero), abs_zero] at hnormal
    exact hnormal.not_gt (zpow_pos two_pos _)
  obtain ⟨f, hencode, hf, hsign, hrounds, hnear⟩ := exists_rounds hfinite hzero
  have hfields : fields (encode x) = f := by rw [hencode, fields_ofFields hf]
  constructor
  · intro hbelow
    have hlow : 15361 ≤ (fields (encode x)).exponent := by
      rw [hfields]
      exact hrounds.le_exponent hf hsign hnormal
    have hhigh : (fields (encode x)).exponent ≤ 17406 := by
      rw [hfields]
      exact hrounds.exponent_le hf hsign hbelow
    refine ⟨(hasValue_decode hlow hhigh).finite, ?_, encode_decode_of_normal ?_ hlow hhigh⟩
    · rw [value_decode hlow hhigh, hfields, abs_sub_comm, abs_sub_value hsign]
      exact hnear
    · rw [hencode]
      exact ofFields_lt hf
  · intro hbeyond
    obtain rfl := hrounds.eq_beyondNormal hf hsign hfinite hbeyond
    exact ⟨hfields, hencode ▸ decode_beyondNormal x.negative⟩

/-- The last double below the middle, and the negative one at the middle. -/
theorem doubles_around_the_middle_decoded :
    (Binary64.mk 0x7FEFFFFFFFF7FFFF).isFinite = true ∧
    2 ^ (-1022 : ℤ) ≤ |(Binary64.mk 0x7FEFFFFFFFF7FFFF).value| ∧
    |(Binary64.mk 0x7FEFFFFFFFF7FFFF).value| < (2 - 2 ^ (-33 : ℤ)) * 2 ^ 1023 ∧
    |(decode (encode (.mk 0x7FEFFFFFFFF7FFFF))).value - (Binary64.mk 0x7FEFFFFFFFF7FFFF).value| ≤
      2 ^ (-33 : ℤ) * |(Binary64.mk 0x7FEFFFFFFFF7FFFF).value| ∧
    encode (decode (encode (.mk 0x7FEFFFFFFFF7FFFF))) = encode (.mk 0x7FEFFFFFFFF7FFFF) ∧
    (Binary64.mk 0xFFEFFFFFFFF80000).isFinite = true ∧
    2 ^ (-1022 : ℤ) ≤ |(Binary64.mk 0xFFEFFFFFFFF80000).value| ∧
    (2 - 2 ^ (-33 : ℤ)) * 2 ^ 1023 ≤ |(Binary64.mk 0xFFEFFFFFFFF80000).value| ∧
    decode (encode (.mk 0xFFEFFFFFFFF80000)) = .infinity true := by
  have hmiddle : (2 - 2 ^ (-33 : ℤ)) * 2 ^ 1023 = (9007199254216704 : ℚ) * 2 ^ 971 := by
    rw [show 1023 = 52 + 971 from rfl, pow_add, ← mul_assoc]
    norm_num
  have hlast : |(Binary64.mk 0x7FEFFFFFFFF7FFFF).value| = (9007199254216703 : ℕ) * 2 ^ 971 :=
    Binary64.abs_value_of_units (by decide +kernel)
  have hfirst : |(Binary64.mk 0xFFEFFFFFFFF80000).value| = (9007199254216704 : ℕ) * 2 ^ 971 :=
    Binary64.abs_value_of_units (by decide +kernel)
  have hpower : (0 : ℚ) < 2 ^ 971 := pow_pos two_pos _
  have hlastBelow : |(Binary64.mk 0x7FEFFFFFFFF7FFFF).value| < (2 - 2 ^ (-33 : ℤ)) * 2 ^ 1023 := by
    rw [hlast, hmiddle]
    exact mul_lt_mul_of_pos_right (by norm_num) hpower
  have hfirstAt : (2 - 2 ^ (-33 : ℤ)) * 2 ^ 1023 ≤ |(Binary64.mk 0xFFEFFFFFFFF80000).value| := by
    rw [hfirst, hmiddle]
    exact mul_le_mul_of_nonneg_right (by norm_num) hpower.le
  have hlastNormal := Binary64.le_abs_value (x := .mk 0x7FEFFFFFFFF7FFFF) (by decide)
  have hfirstNormal := Binary64.le_abs_value (x := .mk 0xFFEFFFFFFFF80000) (by decide)
  obtain ⟨hclose, -⟩ := decode_encode (.mk 0x7FEFFFFFFFF7FFFF) (by decide) hlastNormal
  obtain ⟨-, hbeyond⟩ := decode_encode (.mk 0xFFEFFFFFFFF80000) (by decide) hfirstNormal
  obtain ⟨-, hnear, hagain⟩ := hclose hlastBelow
  obtain ⟨-, hinfinite⟩ := hbeyond hfirstAt
  exact ⟨by decide, hlastNormal, hlastBelow, hnear, hagain, by decide, hfirstNormal, hfirstAt,
    hinfinite⟩

/-- The largest double is rounded up to a pattern that no double has as its value. -/
theorem largest_double_decoded_as_infinity :
    (Binary64.mk 0x7FEFFFFFFFFFFFFF).isFinite = true ∧
    2 ^ (-1022 : ℤ) ≤ |(Binary64.mk 0x7FEFFFFFFFFFFFFF).value| ∧
    (decode (encode (.mk 0x7FEFFFFFFFFFFFFF))).isFinite = false ∧
    encode (decode (encode (.mk 0x7FEFFFFFFFFFFFFF))) ≠ encode (.mk 0x7FEFFFFFFFFFFFFF) :=
  ⟨by decide, Binary64.le_abs_value (by decide), by decide +kernel, by decide +kernel⟩

end Float48
end SicDebugger
