import SicDebugger.Json.Number
import SicDebugger.Proofs.Numerals

/-!
# Numbers within range

Rounding yields a finite double as long as the exact result stays away from the end of the range.
The reading of a number in two roundings is therefore within range for every natural number of 64
bits: its digits all fit into the significand, and no power of ten is left over.
-/

namespace SicDebugger

namespace Binary64

variable {negative : Bool} {m n k num den : Nat}

/-! ## Magnitudes -/

/-- The field of the exponent is read off the magnitude. -/
lemma exponentField_ofMagnitude (hm : m < 2 ^ 63) :
    (ofMagnitude negative m).exponentField = m / 2 ^ 52 := by
  cases negative <;>
    simp only [ofMagnitude, exponentField, UInt64.toNat_ofNat', Nat.pow_eq, Bool.false_eq_true,
      ↓reduceIte] <;>
    omega

/-- A magnitude below that of the infinities is finite. -/
lemma isFinite_ofMagnitude (hm : m < 2047 * 2 ^ 52) : (ofMagnitude negative m).isFinite = true := by
  rw [isFinite, exponentField_ofMagnitude (by omega), bne_iff_ne]
  omega

/-- The exact value is bounded by the field of the exponent. -/
lemma units_lt (x : Binary64) : x.units < 2 ^ (53 + x.exponentField) := by
  have hfraction : x.fractionField < 2 ^ 52 := Nat.mod_lt _ (by decide)
  have hsignificand : x.significand < 2 ^ 53 := by
    unfold significand
    simp only [Nat.pow_eq]
    split <;> omega
  calc x.units < 2 ^ 53 * 2 ^ x.scale := 
        Nat.mul_lt_mul_of_pos_right hsignificand (Nat.pow_pos (by decide))
    _ = 2 ^ (53 + x.scale) := (Nat.pow_add ..).symm
    _ ≤ 2 ^ (53 + x.exponentField) := Nat.pow_le_pow_right (by decide) (by simp [scale])

/-! ## Rounding -/

lemma roundHalfEven_le (num den : Nat) : roundHalfEven num den ≤ num / den + 1 := by
  unfold roundHalfEven
  dsimp only
  split_ifs <;> omega

/-- The magnitude of a quotient below a power of two is bounded by the exponent of the power. -/
lemma roundedMagnitude_le (hk : 53 ≤ k) (h : num / den < 2 ^ k) :
    roundedMagnitude num den ≤ (k - 51) * 2 ^ 52 := by
  have hlog : Nat.log2 (num / den) < k := by
    by_cases hzero : num / den = 0
    · rw [hzero, Nat.log2_zero]
      omega
    · exact (Nat.log2_lt hzero).mpr h
  set shift := Nat.log2 (num / den) + 1 - 53 with hshift
  -- what is left of the quotient behind the shift has at most 53 digits
  have hquotient : num / (den * 2 ^ shift) < 2 ^ 53 := by
    rw [← Nat.div_div_eq_div_mul, Nat.div_lt_iff_lt_mul (by positivity), ← Nat.pow_add]
    exact Nat.lt_log2_self.trans_le (Nat.pow_le_pow_right (by decide) (by omega))
  have hround := roundHalfEven_le num (den * 2 ^ shift)
  have hbits : shift * 2 ^ 52 ≤ (k - 53) * 2 ^ 52 := Nat.mul_le_mul_right _ (by omega)
  unfold roundedMagnitude
  simp only [Nat.pow_eq, ← hshift]
  omega

/-- The double nearest to a quotient below a power of two, which is counted in units of another
power, has a field of the exponent no larger than the two exponents allow. -/
lemma exponentField_rounded_le (e : Nat) (hk : 53 ≤ k + e) (hrange : k + e ≤ 2080)
    (h : num < den * 2 ^ k) :
    (ofMagnitude negative (roundedMagnitude (num * Nat.pow 2 e) den)).exponentField ≤
      k + e - 51 := by
  have hden : 0 < den := Nat.pos_of_ne_zero (by rintro rfl; simp at h)
  have hquotient : num * Nat.pow 2 e / den < 2 ^ (k + e) := by
    rw [Nat.pow_eq, Nat.div_lt_iff_lt_mul hden, Nat.pow_add]
    calc num * 2 ^ e < den * 2 ^ k * 2 ^ e :=
          Nat.mul_lt_mul_of_pos_right h (Nat.pow_pos (by decide))
      _ = 2 ^ k * 2 ^ e * den := by ring
  have hround := roundedMagnitude_le hk hquotient
  clear h hquotient
  rw [exponentField_ofMagnitude (by omega)]
  exact Nat.div_le_of_le_mul (by omega)

/-- The double nearest to a quotient below a power of two has a field of the exponent no larger than
the exponent of the power allows. -/
lemma exponentField_ofRatio_le (hk : k ≤ 1000) (h : num < den * 2 ^ k) :
    (ofRatio negative num den).exponentField ≤ k + 1023 :=
  exponentField_rounded_le 1074 (by omega) (by omega) h

lemma isFinite_of_exponentField_le {x : Binary64} (h : x.exponentField ≤ 2046) :
    x.isFinite = true := by
  rw [isFinite, bne_iff_ne]
  omega

/-- The product of two exact values is bounded by the fields of the exponents. -/
lemma units_mul_lt {x y : Binary64} {a b e k : Nat} (hx : x.exponentField ≤ a)
    (hy : y.exponentField ≤ b) (h : 106 + a + b ≤ e + k) :
    x.units * y.units < Nat.pow 2 e * 2 ^ k := by
  calc x.units * y.units
      < 2 ^ (53 + x.exponentField) * 2 ^ (53 + y.exponentField) :=
        Nat.mul_lt_mul_of_lt_of_lt (units_lt x) (units_lt y)
    _ = 2 ^ (106 + x.exponentField + y.exponentField) := by
        rw [← Nat.pow_add]
        congr 1
        omega
    _ ≤ 2 ^ (e + k) := Nat.pow_le_pow_right (by decide) (by omega)
    _ = Nat.pow 2 e * 2 ^ k := Nat.pow_add ..

lemma exponentField_ofNat_le (hk : k ≤ 1000) (h : n < 2 ^ k) :
    (ofNat n).exponentField ≤ k + 1023 :=
  exponentField_ofRatio_le hk (by rwa [Nat.one_mul])

/-- A product with the power of ten that is one stays within range. -/
lemma isFinite_ofNat_mul_powerOfTen_zero (hn : n < UInt64.size) :
    ((ofNat n).mul (powerOfTen 0)).isFinite = true := by
  have hx : (ofNat n).exponentField ≤ 64 + 1023 := exponentField_ofNat_le (by omega) hn
  have hy : (powerOfTen 0).exponentField ≤ 1 + 1023 :=
    exponentField_ofNat_le (by omega) (by decide)
  have hproduct := units_mul_lt (e := 2148) (k := 200) hx hy (by omega)
  exact isFinite_of_exponentField_le
    ((exponentField_ofRatio_le (by omega) hproduct).trans (by omega))

end Binary64

namespace Number

/-- Digits whose value fits into 64 bits are all taken. -/
lemma takeWhole_eq {digits : List Nat} (h : digits.foldl (fun n d => n * 10 + d) 0 < UInt64.size) :
    takeWhole digits = ⟨digits.foldl (fun n d => n * 10 + d) 0, 0⟩ := by
  suffices htake : ∀ n, digits.foldl (fun n d => n * 10 + d) n < UInt64.size →
      digits.foldl (fun s d =>
        if s.scale = 0 ∧ s.digits * 10 + d < UInt64.size then { s with digits := s.digits * 10 + d }
        else { s with scale := s.scale + 1 }) (⟨n, 0⟩ : Significand) =
      ⟨digits.foldl (fun n d => n * 10 + d) n, 0⟩ from htake 0 h
  clear h
  induction digits with
  | nil => intro n _; rfl
  | cons d rest ih =>
    intro n hn
    have hle := Text.le_foldl_digits (by decide : 0 < 10) (n * 10 + d) rest
    rw [List.foldl_cons] at hn
    rw [List.foldl_cons, List.foldl_cons, if_pos ⟨rfl, hle.trans_lt hn⟩, ih _ hn]

/-- A natural number of 64 bits is its own significand. -/
lemma significand_ofNat {n : Nat} (hn : n < UInt64.size) : (ofNat n).significand = ⟨n, 0⟩ := by
  have hvalue : ((Nat.toDigits 10 n).map fun c => c.toNat - '0'.toNat).foldl
      (fun n d => n * 10 + d) 0 = n := by
    have := Nat.ofDigitChars_ten_toDigits (n := n)
    rw [Nat.ofDigitChars] at this
    rw [List.foldl_map]
    simpa only [Nat.mul_comm] using this
  have htake := takeWhole_eq (by rw [hvalue]; exact hn)
  rw [hvalue] at htake
  simp only [significand, ofNat, htake]
  rfl

/-- A natural number of 64 bits is within range. -/
theorem isSome_toBinary64?_ofNat {n : Nat} (hn : n < UInt64.size) :
    (ofNat n).toBinary64?.isSome := by
  have hfinite := Binary64.isFinite_ofNat_mul_powerOfTen_zero hn
  have hexponent : (ofNat n).exponent.getD 0 = 0 := rfl
  unfold toBinary64?
  simp only [significand_ofNat hn, hexponent]
  by_cases hzero : n = 0
  · simp only [if_pos hzero]
    rfl
  · have hsmall : ¬ (308 < (0 : Int) + 0 ∨ (Nat.pow 2 31 : Int) ≤ 0) := by
      rw [Nat.pow_eq]
      omega
    rw [if_neg hzero, if_neg hsmall, if_pos (by omega)]
    simp [Option.filter, hfinite]

end Number
end SicDebugger
