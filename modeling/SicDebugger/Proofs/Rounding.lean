import SicDebugger.Float48
import Mathlib.Algebra.Order.Field.Rat
import Mathlib.Tactic.FieldSimp
import Mathlib.Tactic.Lemma
import Mathlib.Tactic.Positivity
import Mathlib.Tactic.Ring

/-!
# Rounding to 48 bits

The exact value of a double and that of a 48-bit pattern are both read off the fields as rational
numbers. The pattern of a finite double other than zero is the one whose value is nearest to that of
the double, among all patterns; a tie goes to the one farther from zero. The exponents of the
doubles all lie well within those of the patterns, so nothing saturates and nothing is flushed to
zero.
-/

namespace SicDebugger

namespace Binary64

/-- The exact value of a finite number. -/
def value (x : Binary64) : ℚ := (-1) ^ x.negative.toNat * (x.units / 2 ^ 1074)

/-- The exact value, counted in units of `2 ^ -16415`. -/
lemma value_eq (x : Binary64) :
    x.value = (-1) ^ x.negative.toNat * ((x.units * 2 ^ 15341 : ℕ) / 2 ^ 16415) := by
  -- the exponents are kept general, since the powers are too large to be computed
  have hmagnitude (a b : ℕ) : (x.units : ℚ) / 2 ^ a = (x.units * 2 ^ b : ℕ) / 2 ^ (a + b) := by
    rw [pow_add]
    push_cast
    field_simp
  exact congrArg ((-1) ^ x.negative.toNat * ·) (hmagnitude 1074 15341)

end Binary64

namespace Float48

/-- The exact value that fields denote, with a hidden one in front of the fraction. -/
def Fields.value (f : Fields) : ℚ :=
  (-1) ^ f.sign * ((1 + f.fraction / 2 ^ 32) * 2 ^ ((f.exponent : ℤ) - 16383))

/-- Fields round a number: those of no pattern are nearer to it, and of two that are as near the
ones farther from zero are taken. -/
structure Rounds (x : Binary64) (f : Fields) : Prop where
  nearest : ∀ raw, |x.value - f.value| ≤ |x.value - (fields raw).value|
  away : ∀ raw, |x.value - (fields raw).value| = |x.value - f.value| →
    |(fields raw).value| ≤ |f.value|

variable {x : Binary64} {f : Fields} {raw : UInt64} {b k s : ℕ}

/-! ## Fields and patterns -/

/-- The fields fit into their bits. -/
structure Fields.InRange (f : Fields) : Prop where
  sign : f.sign < 2
  exponent : f.exponent < 2 ^ 15
  fraction : f.fraction < 2 ^ 32

lemma inRange_fields (raw : UInt64) : (fields raw).InRange where
  sign := Nat.mod_lt _ (by decide)
  exponent := Nat.mod_lt _ (by decide)
  fraction := Nat.mod_lt _ (by decide)

lemma toNat_ofFields (h : f.InRange) :
    (ofFields f).toNat = f.sign * 2 ^ 47 + f.exponent * 2 ^ 32 + f.fraction := by
  obtain ⟨hsign, hexponent, hfraction⟩ := h
  simp only [ofFields, Nat.pow_eq, UInt64.toNat_ofNat']
  omega

lemma ofFields_lt (h : f.InRange) : (ofFields f).toNat < 2 ^ 48 := by
  obtain ⟨hsign, hexponent, hfraction⟩ := id h
  rw [toNat_ofFields h]
  omega

lemma fields_ofFields (h : f.InRange) : fields (ofFields f) = f := by
  obtain ⟨sign, exponent, fraction⟩ := f
  obtain ⟨hsign, hexponent, hfraction⟩ := id h
  simp only [fields, toNat_ofFields h, Nat.pow_eq, Fields.mk.injEq]
  dsimp only at hsign hexponent hfraction
  omega

/-- A pattern is rebuilt from its fields. -/
lemma rebuild_fields (h : raw.toNat < 2 ^ 48) :
    (fields raw).sign * 2 ^ 47 + (fields raw).exponent * 2 ^ 32 + (fields raw).fraction =
      raw.toNat := by
  simp only [fields, Nat.pow_eq]
  omega

lemma ofFields_fields (h : raw.toNat < 2 ^ 48) : ofFields (fields raw) = raw := by
  rw [← UInt64.toNat_inj, toNat_ofFields (inRange_fields raw), rebuild_fields h]

/-! ## Values as counts of one unit -/

/-- The magnitude that fields denote, counted in units of `2 ^ -16415`. -/
def Fields.units (f : Fields) : ℕ := (2 ^ 32 + f.fraction) * 2 ^ f.exponent

lemma Fields.value_eq (f : Fields) : f.value = (-1) ^ f.sign * (f.units / 2 ^ 16415) := by
  have hmagnitude (bias : ℕ) :
      (1 + (f.fraction : ℚ) / 2 ^ 32) * 2 ^ ((f.exponent : ℤ) - bias) =
        f.units / 2 ^ (bias + 32) := by
    rw [zpow_sub₀ two_ne_zero, zpow_natCast, zpow_natCast, pow_add, units, Nat.cast_mul,
      Nat.cast_add, Nat.cast_pow, Nat.cast_pow, Nat.cast_ofNat]
    field_simp
  exact congrArg ((-1) ^ f.sign * ·) (hmagnitude 16383)

/-- The distance of two signed values is a count of the unit in which both are counted. -/
lemma abs_signed_sub (i j m n w : ℕ) :
    |(-1 : ℚ) ^ i * (m / 2 ^ w) - (-1) ^ j * (n / 2 ^ w)| =
      ((m : ℤ) - (-1) ^ (i + j) * n).natAbs / 2 ^ w := by
  have hsign : (-1 : ℚ) ^ j = (-1) ^ i * (-1) ^ (i + j) := by
    rw [← pow_add, ← add_assoc, pow_add, ← two_mul, pow_mul]
    norm_num
  have hfactor : (-1 : ℚ) ^ i * (m / 2 ^ w) - (-1) ^ j * (n / 2 ^ w) =
      (-1) ^ i * ((m - (-1) ^ (i + j) * n) / 2 ^ w) := by
    rw [hsign]
    ring
  rw [hfactor, abs_mul, abs_neg_one_pow, one_mul, abs_div,
    abs_of_pos (pow_pos two_pos w : (0 : ℚ) < 2 ^ w), Nat.cast_natAbs]
  push_cast
  rfl

lemma abs_signed (i m w : ℕ) : |(-1 : ℚ) ^ i * (m / 2 ^ w)| = m / 2 ^ w := by
  rw [abs_mul, abs_neg_one_pow, one_mul, abs_of_nonneg (by positivity)]

/-! ## The nearest multiple -/

/-- A count of units in twenty bits, rounded to whole ones: half a one is rounded up. -/
def halfUp (s : ℕ) : ℕ := (s + 2 ^ 19) / 2 ^ 20

/-- No integer is nearer than the rounded count, and one that is as near is no larger. -/
lemma halfUp_nearest (s : ℕ) (m : ℤ) :
    ((s : ℤ) - halfUp s * 2 ^ 20).natAbs ≤ ((s : ℤ) - m * 2 ^ 20).natAbs ∧
      (((s : ℤ) - m * 2 ^ 20).natAbs = ((s : ℤ) - halfUp s * 2 ^ 20).natAbs →
        m.natAbs ≤ halfUp s) := by
  unfold halfUp
  omega

/-- The magnitudes of patterns from a power of two on are multiples of a power. -/
lemma Fields.units_cases (h : f.InRange) (b : ℕ) :
    (∃ m, f.units = m * 2 ^ b) ∨ f.units < 2 ^ (32 + b) := by
  rcases Nat.lt_or_ge f.exponent b with hlt | hge
  · right
    calc f.units < 2 ^ 33 * 2 ^ f.exponent :=
          Nat.mul_lt_mul_of_pos_right (by have := h.fraction; omega) (by positivity)
      _ = 2 ^ (33 + f.exponent) := (pow_add ..).symm
      _ ≤ 2 ^ (32 + b) := Nat.pow_le_pow_right (by decide) (by omega)
  · left
    obtain ⟨e, he⟩ := Nat.exists_eq_add_of_le hge
    refine ⟨(2 ^ 32 + f.fraction) * 2 ^ e, ?_⟩
    rw [units, he, pow_add]
    ring

/-- Of the signed magnitudes of patterns none is nearer to a significand of 53 bits at its place
than the rounded one, and one that is as near is no larger. -/
lemma units_nearest (hs : 2 ^ 52 ≤ s) (k : ℕ) (h : f.InRange) (j : ℕ) :
    (((s * 2 ^ k : ℕ) : ℤ) - (halfUp s * 2 ^ (k + 20) : ℕ)).natAbs ≤
        (((s * 2 ^ k : ℕ) : ℤ) - (-1) ^ j * f.units).natAbs ∧
      ((((s * 2 ^ k : ℕ) : ℤ) - (-1) ^ j * f.units).natAbs =
          (((s * 2 ^ k : ℕ) : ℤ) - (halfUp s * 2 ^ (k + 20) : ℕ)).natAbs →
        f.units ≤ halfUp s * 2 ^ (k + 20)) := by
  have hplace (m : ℤ) : (((s * 2 ^ k : ℕ) : ℤ) - m * 2 ^ (k + 20)).natAbs =
      ((s : ℤ) - m * 2 ^ 20).natAbs * 2 ^ k := by
    have hfactor : ((s * 2 ^ k : ℕ) : ℤ) - m * 2 ^ (k + 20) = ((s : ℤ) - m * 2 ^ 20) * 2 ^ k := by
      rw [pow_add, Nat.cast_mul, Nat.cast_pow, Nat.cast_ofNat]
      ring
    rw [hfactor, Int.natAbs_mul, Int.natAbs_pow]
    rfl
  have hrounded : ((halfUp s * 2 ^ (k + 20) : ℕ) : ℤ) = halfUp s * 2 ^ (k + 20) := by
    rw [Nat.cast_mul, Nat.cast_pow, Nat.cast_ofNat]
  rw [hrounded, hplace]
  rcases f.units_cases h (k + 20) with ⟨m, hm⟩ | hbelow
  · -- a multiple is compared in units of the place
    have hmultiple : (-1) ^ j * (f.units : ℤ) = (-1) ^ j * m * 2 ^ (k + 20) := by
      rw [hm, Nat.cast_mul, Nat.cast_pow, Nat.cast_ofNat, mul_assoc]
    obtain ⟨hle, hlarger⟩ := halfUp_nearest s ((-1) ^ j * m)
    rw [hmultiple, hplace]
    refine ⟨Nat.mul_le_mul_right _ hle, ?_⟩
    intro heq
    have hsmaller := hlarger (Nat.eq_of_mul_eq_mul_right (by positivity) heq)
    rw [Int.natAbs_mul, Int.natAbs_pow, Int.natAbs_neg, Int.natAbs_one, one_pow, one_mul,
      Int.natAbs_natCast] at hsmaller
    rw [hm]
    exact Nat.mul_le_mul_right _ hsmaller
  · -- the others lie below the power of two at the bottom of the significands
    have hbottom : ((s : ℤ) - halfUp s * 2 ^ 20).natAbs ≤ s - 2 ^ 52 := by
      have := (halfUp_nearest s (2 ^ 32)).1
      omega
    have hsigned : (-1) ^ j * (f.units : ℤ) ≤ f.units := by
      rcases neg_one_pow_eq_or ℤ j with hj | hj
      · rw [hj]
        omega
      · rw [hj]
        omega
    have hfar : (s - 2 ^ 52) * 2 ^ k < (((s * 2 ^ k : ℕ) : ℤ) - (-1) ^ j * f.units).natAbs := by
      have hunits : f.units < 2 ^ 52 * 2 ^ k := by
        rw [← pow_add]
        exact hbelow.trans_eq (congrArg (2 ^ ·) (by omega))
      have hs' : 2 ^ 52 * 2 ^ k ≤ s * 2 ^ k := Nat.mul_le_mul_right _ hs
      rw [Nat.sub_mul]
      omega
    have hlt := (Nat.mul_le_mul_right (2 ^ k) hbottom).trans_lt hfar
    exact ⟨hlt.le, fun heq => absurd heq hlt.ne'⟩

/-! ## Encoding -/

/-- A finite double other than zero has a significand of 53 bits at a place. The biased exponent and
the fraction are read off these. -/
lemma exists_normalized (hfinite : x.isFinite = true) (hzero : x.isZero = false) :
    ∃ k fraction : ℕ, 15289 ≤ k ∧ k ≤ 17386 ∧ fraction < 2 ^ 52 ∧
      normalized x = (((k + 20 : ℕ) : ℤ), fraction) ∧
      x.units * 2 ^ 15341 = (2 ^ 52 + fraction) * 2 ^ k := by
  have hexponent : x.exponentField < 2048 := Nat.mod_lt _ (by decide)
  have hfraction : x.fractionField < 2 ^ 52 := Nat.mod_lt _ (by decide)
  have hfinite' : x.exponentField ≠ 2047 := by simpa [Binary64.isFinite] using hfinite
  by_cases hsub : x.exponentField = 0
  · -- the leading one of a subnormal is moved into the hidden place
    have hne : x.fractionField ≠ 0 := by simpa [Binary64.isZero, hsub] using hzero
    have hlog : Nat.log2 x.fractionField < 52 := (Nat.log2_lt hne).mpr hfraction
    obtain ⟨shift, hshift⟩ : ∃ shift, 52 - Nat.log2 x.fractionField = shift := ⟨_, rfl⟩
    have hlow : 2 ^ 52 ≤ x.fractionField * 2 ^ shift := by
      calc 2 ^ 52 = 2 ^ Nat.log2 x.fractionField * 2 ^ shift := by
            rw [← pow_add]
            congr 1
            omega
        _ ≤ x.fractionField * 2 ^ shift := Nat.mul_le_mul_right _ (Nat.log2_self_le hne)
    have hhigh : x.fractionField * 2 ^ shift < 2 ^ 53 := by
      calc x.fractionField * 2 ^ shift
          < 2 ^ (Nat.log2 x.fractionField + 1) * 2 ^ shift :=
            Nat.mul_lt_mul_of_pos_right Nat.lt_log2_self (by positivity)
        _ = 2 ^ 53 := by
            rw [← pow_add]
            congr 1
            omega
    refine ⟨15289 + Nat.log2 x.fractionField, x.fractionField * 2 ^ shift - 2 ^ 52, by omega,
      by omega, by omega, ?_, ?_⟩
    · rw [normalized, if_pos hsub]
      simp only [Nat.pow_eq, hshift, Prod.mk.injEq]
      omega
    · have hscale : Nat.pow 2 x.scale = 1 := by
        rw [Binary64.scale, hsub]
      rw [Binary64.units, Binary64.significand, if_pos hsub, hscale, mul_one,
        Nat.add_sub_cancel' hlow, mul_assoc, ← pow_add]
      congr 2
      omega
  · refine ⟨x.exponentField + 15340, x.fractionField, by omega, by omega, hfraction, ?_, ?_⟩
    · rw [normalized, if_neg hsub, Prod.mk.injEq]
      exact ⟨by omega, rfl⟩
    · rw [Binary64.units, Binary64.significand, if_neg hsub, Binary64.scale, Nat.pow_eq, Nat.pow_eq,
        mul_assoc, ← pow_add]
      congr 2
      omega

lemma pack_of_lt {negative : Bool} {biased fraction : ℕ} (hpos : 0 < biased)
    (hlt : biased < 2 ^ 15 - 1) :
    pack negative biased fraction = ofFields ⟨negative.toNat, biased, fraction⟩ := by
  rw [pack, if_neg, if_neg, Int.toNat_natCast]
  · omega
  · rw [Nat.pow_eq]
    omega

/-- The pattern of a finite double other than zero has the sign of the double, an exponent within
the field, and the rounded significand at its place. -/
lemma exists_encode_eq (hfinite : x.isFinite = true) (hzero : x.isZero = false) :
    ∃ f k s, encode x = ofFields f ∧ f.InRange ∧ f.sign = x.negative.toNat ∧
      0 < f.exponent ∧ f.exponent < 2 ^ 15 - 1 ∧ 2 ^ 52 ≤ s ∧
      x.units * 2 ^ 15341 = s * 2 ^ k ∧ f.units = halfUp s * 2 ^ (k + 20) := by
  obtain ⟨k, fraction, hlow, hhigh, hfraction, hnormalized, hunits⟩ :=
    exists_normalized hfinite hzero
  have hinfinite : x.isInfinite = false := by
    have hexponent : x.exponentField ≠ 2047 := by simpa [Binary64.isFinite] using hfinite
    simp [Binary64.isInfinite, hexponent]
  have hhalf : halfUp (2 ^ 52 + fraction) = 2 ^ 32 + (fraction + 2 ^ 19) / 2 ^ 20 := by
    unfold halfUp
    omega
  obtain ⟨biased, rounded, hpack, hleast, hmost, hrounded, hplace⟩ : ∃ biased rounded : ℕ,
      encode x = pack x.negative biased rounded ∧ k + 20 ≤ biased ∧ biased ≤ k + 21 ∧
        rounded < 2 ^ 32 ∧
        (2 ^ 32 + rounded) * 2 ^ biased = halfUp (2 ^ 52 + fraction) * 2 ^ (k + 20) := by
    rw [encode, if_neg (by simp [hinfinite]), if_neg (by simp [hzero]), hnormalized]
    simp only [Nat.pow_eq]
    by_cases hcarry : 2 ^ 32 ≤ (fraction + 2 ^ 19) / 2 ^ 20
    · -- the rounded significand is the next power of two
      have htop : (fraction + 2 ^ 19) / 2 ^ 20 = 2 ^ 32 := by omega
      rw [if_pos hcarry]
      refine ⟨k + 21, 0, rfl, by omega, by omega, by omega, ?_⟩
      rw [hhalf, htop, pow_succ 2 (k + 20)]
      ring
    · rw [if_neg hcarry]
      refine ⟨k + 20, _, rfl, by omega, by omega, by omega, ?_⟩
      rw [hhalf]
  rw [pack_of_lt (by omega) (by omega)] at hpack
  refine ⟨_, k, 2 ^ 52 + fraction, hpack, ⟨x.negative.toNat_lt, ?_, hrounded⟩, rfl, ?_, ?_,
    by omega, hunits, hplace⟩
  · show biased < 2 ^ 15
    omega
  · show 0 < biased
    omega
  · show biased < 2 ^ 15 - 1
    omega

/-- Fields with the sign of a number and the rounded significand at its place round it. -/
lemma rounds_of_units (hsign : f.sign = x.negative.toNat) (hs : 2 ^ 52 ≤ s)
    (hx : x.units * 2 ^ 15341 = s * 2 ^ k) (hf : f.units = halfUp s * 2 ^ (k + 20)) :
    Rounds x f := by
  have hunit : (0 : ℚ) < 2 ^ 16415 := pow_pos two_pos _
  have hdistance (g : Fields) : |x.value - g.value| =
      (((s * 2 ^ k : ℕ) : ℤ) - (-1) ^ (x.negative.toNat + g.sign) * g.units).natAbs /
        2 ^ 16415 := by
    rw [x.value_eq, g.value_eq, abs_signed_sub, hx]
  have hself : |x.value - f.value| =
      (((s * 2 ^ k : ℕ) : ℤ) - (halfUp s * 2 ^ (k + 20) : ℕ)).natAbs / 2 ^ 16415 := by
    rw [hdistance, hsign, Even.neg_one_pow ⟨_, rfl⟩, one_mul, hf]
  constructor
  · intro raw
    obtain ⟨hle, -⟩ :=
      units_nearest hs k (inRange_fields raw) (x.negative.toNat + (fields raw).sign)
    rw [hself, hdistance, div_le_div_iff_of_pos_right hunit, Nat.cast_le]
    exact hle
  · intro raw heq
    obtain ⟨-, hlarger⟩ :=
      units_nearest hs k (inRange_fields raw) (x.negative.toNat + (fields raw).sign)
    rw [hself, hdistance, div_left_inj' hunit.ne', Nat.cast_inj] at heq
    rw [Fields.value_eq, Fields.value_eq, abs_signed, abs_signed, div_le_div_iff_of_pos_right hunit,
      Nat.cast_le, hf]
    exact hlarger heq

lemma inRange_saturated (negative : Bool) :
    Fields.InRange ⟨negative.toNat, 2 ^ 15 - 1, 2 ^ 32 - 1⟩ :=
  ⟨negative.toNat_lt, Nat.sub_lt (by decide) (by decide), Nat.sub_lt (by decide) (by decide)⟩

lemma fields_saturated (negative : Bool) :
    fields (saturated negative) = ⟨negative.toNat, 2 ^ 15 - 1, 2 ^ 32 - 1⟩ :=
  fields_ofFields (inRange_saturated negative)

/-- The encoding of a finite double other than zero neither saturates nor is flushed to zero. It
has the sign of the double, and of all patterns the value nearest to that of the double, where a tie
goes away from zero. Both zeros are encoded as zero, and the infinities as the largest patterns of
their signs. -/
theorem encode_rounds :
    (∀ x : Binary64, x.isFinite = true → x.isZero = false →
      encode x ≠ 0 ∧ (∀ negative, encode x ≠ saturated negative) ∧ (encode x).toNat < 2 ^ 48 ∧
      (fields (encode x)).sign = x.negative.toNat ∧ Rounds x (fields (encode x))) ∧
    (∀ x : Binary64, x.isZero = true → encode x = 0) ∧
    ∀ x : Binary64, x.isInfinite = true → (encode x).toNat < 2 ^ 48 ∧
      fields (encode x) = ⟨x.negative.toNat, 2 ^ 15 - 1, 2 ^ 32 - 1⟩ := by
  refine ⟨?_, ?_, ?_⟩
  · intro x hfinite hzero
    obtain ⟨f, k, s, hencode, hrange, hsign, hpos, hlt, hs, hx, hf⟩ :=
      exists_encode_eq hfinite hzero
    have hfields : fields (encode x) = f := by rw [hencode, fields_ofFields hrange]
    refine ⟨?_, ?_, ?_, ?_, ?_⟩
    · intro hflushed
      rw [hflushed] at hfields
      rw [← hfields] at hpos
      exact absurd hpos (by decide)
    · intro negative hsaturated
      rw [hsaturated, fields_saturated] at hfields
      rw [← hfields] at hlt
      exact Nat.lt_irrefl _ hlt
    · rw [hencode]
      exact ofFields_lt hrange
    · rw [hfields, hsign]
    · rw [hfields]
      exact rounds_of_units hsign hs hx hf
  · intro x hzero
    have hexponent : x.exponentField = 0 := by
      simp only [Binary64.isZero, Bool.and_eq_true, beq_iff_eq] at hzero
      exact hzero.1
    have hinfinite : x.isInfinite = false := by simp [Binary64.isInfinite, hexponent]
    rw [encode, if_neg (by simp [hinfinite]), if_pos hzero]
  · intro x hinfinite
    have hencode : encode x = saturated x.negative := by rw [encode, if_pos hinfinite]
    rw [hencode]
    exact ⟨ofFields_lt (inRange_saturated x.negative), fields_saturated x.negative⟩

/-- The largest subnormal is rounded up to the next power of two, and a double halfway between two
patterns to the larger one. -/
theorem largest_subnormal_and_tie_encoded :
    (Binary64.mk 0x000FFFFFFFFFFFFF).isFinite = true ∧
    (Binary64.mk 0x000FFFFFFFFFFFFF).isZero = false ∧
    encode (.mk 0x000FFFFFFFFFFFFF) = 0x3C0100000000 ∧
    Rounds (.mk 0x000FFFFFFFFFFFFF) ⟨0, 0x3C01, 0⟩ ∧
    (Binary64.mk 0xBFF0000000080000).isFinite = true ∧
    (Binary64.mk 0xBFF0000000080000).isZero = false ∧
    encode (.mk 0xBFF0000000080000) = 0xBFFF00000001 ∧
    Rounds (.mk 0xBFF0000000080000) ⟨1, 0x3FFF, 1⟩ ∧
    encode (.zero true) = 0 ∧
    fields (encode (.infinity true)) = ⟨1, 0x7FFF, 0xFFFFFFFF⟩ := by
  obtain ⟨hfinite, hzeros, hinfinities⟩ := encode_rounds
  have hsubnormal : encode (.mk 0x000FFFFFFFFFFFFF) = 0x3C0100000000 := by decide +kernel
  have htie : encode (.mk 0xBFF0000000080000) = 0xBFFF00000001 := by decide +kernel
  obtain ⟨-, -, -, -, hrounds⟩ := hfinite (.mk 0x000FFFFFFFFFFFFF) (by decide) (by decide)
  obtain ⟨-, -, -, -, hrounds'⟩ := hfinite (.mk 0xBFF0000000080000) (by decide) (by decide)
  rw [hsubnormal] at hrounds
  rw [htie] at hrounds'
  exact ⟨by decide, by decide, hsubnormal, hrounds, by decide, by decide, htie, hrounds',
    hzeros _ (by decide), (hinfinities (.infinity true) (by decide)).2⟩

end Float48
end SicDebugger
