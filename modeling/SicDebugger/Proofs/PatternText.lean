import SicDebugger.Proofs.RegisterText
import SicDebugger.Proofs.Rounding

/-!
# Patterns as hexadecimal text

Every double is encoded within 48 bits, which are twelve hexadecimal digits. The text of a pattern
is read back as these bits, and nothing else of a word counts for its fields, so the text loses
nothing: it determines the pattern.
-/

namespace SicDebugger

namespace Float48

variable {raw other : UInt64} {negative : Bool} {fraction : ℕ}

/-! ## Patterns of doubles -/

lemma saturated_lt (negative : Bool) : (saturated negative).toNat < 2 ^ 48 :=
  ofFields_lt (inRange_saturated negative)

lemma pack_lt (negative : Bool) (biased : ℤ) (hfraction : fraction < 2 ^ 32) :
    (pack negative biased fraction).toNat < 2 ^ 48 := by
  unfold pack
  rw [Nat.pow_eq]
  split_ifs with htop hbottom
  · exact saturated_lt negative
  · decide
  · exact ofFields_lt ⟨negative.toNat_lt, by dsimp only; omega, hfraction⟩

/-- Every double is encoded in 48 bits. -/
lemma encode_lt (x : Binary64) : (encode x).toNat < 2 ^ 48 := by
  unfold encode
  split_ifs with hinfinite hzero
  · exact saturated_lt x.negative
  · decide
  · dsimp only
    rw [Nat.pow_eq]
    split
    case isTrue => exact pack_lt _ _ (by decide)
    case isFalse hcarry => exact pack_lt _ _ (not_le.mp hcarry)

/-! ## Reading a text back -/

/-- Where no letter of a mark stands, no mark is dropped. -/
lemma dropMarks_of_not_mem {x : Char} {s : List Char} (h : x ∉ s) : dropMarks x s = s := by
  unfold dropMarks
  split
  case h_1 c r =>
    rw [if_neg]
    rintro rfl
    exact h (by simp)
  case h_2 => rfl

/-- The digits behind the mark. -/
lemma toList_toHex (raw : UInt64) :
    (toHex raw).toList = '0' :: 'x' :: Text.hexFixed 12 raw.toNat := by
  rw [toHex, String.toList_ofList]

lemma mem_hexFixed_upper {width n : ℕ} {c : Char} (hc : c ∈ Text.hexFixed width n) :
    c ∈ "0123456789ABCDEF".toList := by
  have hdigit : ∀ d < 16, Text.hexDigit d ∈ "0123456789ABCDEF".toList := by decide
  obtain ⟨d, hd, rfl⟩ := Text.mem_hexFixed hc
  exact hdigit d hd

/-- The text of a pattern is read back as its lowest 48 bits. -/
lemma ofHex_toHex (raw : UInt64) :
    ofHex (toHex raw) = .ok (UInt64.ofNat (raw.toNat % 2 ^ 48)) := by
  have hplain : ∀ d < 16, Text.isBlank (Text.hexDigit d) = false ∧ Text.hexDigit d ≠ 'x' ∧
      Text.hexDigit d ≠ 'X' := by decide
  have hdigits : ∀ c ∈ Text.hexFixed 12 raw.toNat,
      Text.isBlank c = false ∧ c ≠ 'x' ∧ c ≠ 'X' := by
    intro c hc
    obtain ⟨d, hd, rfl⟩ := Text.mem_hexFixed hc
    exact hplain d hd
  have htrim : Text.trimChars ('0' :: 'x' :: Text.hexFixed 12 raw.toNat) =
      '0' :: 'x' :: Text.hexFixed 12 raw.toNat := by
    refine Text.trimChars_eq_self ?_
    rintro c hc
    rcases List.mem_cons.mp hc with rfl | hc
    · rfl
    · rcases List.mem_cons.mp hc with rfl | hc
      · rfl
      · exact (hdigits c hc).1
  have hmark : dropMarks 'x' ('0' :: 'x' :: Text.hexFixed 12 raw.toNat) =
      Text.hexFixed 12 raw.toNat := by
    rw [dropMarks, if_pos rfl]
    exact dropMarks_of_not_mem fun hmem => (hdigits 'x' hmem).2.1 rfl
  have hother : dropMarks 'X' (Text.hexFixed 12 raw.toNat) = Text.hexFixed 12 raw.toNat :=
    dropMarks_of_not_mem fun hmem => (hdigits 'X' hmem).2.2 rfl
  have hread : Text.readNumeral? 16 UInt64.size (Text.hexFixed 12 raw.toNat) =
      some (raw.toNat % 16 ^ 12) := Text.readNumeral?_hexFixed 11 raw.toNat (by decide)
  rw [ofHex, toList_toHex, htrim, hmark, hother, hread]
  rfl

/-- Bits above the 48th do not count for the fields. -/
lemma fields_lowest (raw : UInt64) : fields (UInt64.ofNat (raw.toNat % 2 ^ 48)) = fields raw := by
  simp only [fields, UInt64.toNat_ofNat', Nat.pow_eq, Fields.mk.injEq]
  omega

lemma toNat_lowest (raw : UInt64) :
    (UInt64.ofNat (raw.toNat % 2 ^ 48)).toNat = raw.toNat % 2 ^ 48 := by
  rw [UInt64.toNat_ofNat']
  omega

/-- The text determines the lowest 48 bits. -/
lemma lowest_eq_of_toHex_eq (h : toHex raw = toHex other) :
    raw.toNat % 2 ^ 48 = other.toNat % 2 ^ 48 := by
  have hread := ofHex_toHex raw
  rw [h, ofHex_toHex other, Except.ok.injEq, ← UInt64.toNat_inj, toNat_lowest, toNat_lowest] at hread
  exact hread.symm

/-- **The hexadecimal text of a pattern loses nothing.** Every double is encoded in 48 bits. The text
of a word is its mark and twelve upper-case digits; it is read back as the lowest 48 bits, which have
the fields of the word and are rebuilt from them. Patterns with the same text are the same. -/
theorem read_back_from_hex :
    (∀ x : Binary64, (encode x).toNat < 2 ^ 48) ∧
    (∀ raw : UInt64,
      (∃ digits, (toHex raw).toList = '0' :: 'x' :: digits ∧ digits.length = 12 ∧
        ∀ c ∈ digits, c ∈ "0123456789ABCDEF".toList) ∧
      ∃ pattern, ofHex (toHex raw) = .ok pattern ∧ pattern.toNat = raw.toNat % 2 ^ 48 ∧
        (fields pattern).sign * 2 ^ 47 + (fields pattern).exponent * 2 ^ 32 +
          (fields pattern).fraction = pattern.toNat ∧
        fields pattern = fields raw) ∧
    ∀ raw other : UInt64, raw.toNat < 2 ^ 48 → other.toNat < 2 ^ 48 → toHex raw = toHex other →
      raw = other := by
  refine ⟨encode_lt, ?_, ?_⟩
  · intro raw
    refine ⟨⟨Text.hexFixed 12 raw.toNat, toList_toHex raw, Text.length_hexFixed 12 raw.toNat,
      fun c => mem_hexFixed_upper⟩, _, ofHex_toHex raw, toNat_lowest raw, ?_, fields_lowest raw⟩
    refine rebuild_fields ?_
    rw [toNat_lowest]
    exact Nat.mod_lt _ (by decide)
  · intro raw other hraw hother heq
    have hlowest := lowest_eq_of_toHex_eq heq
    rw [Nat.mod_eq_of_lt hraw, Nat.mod_eq_of_lt hother] at hlowest
    exact UInt64.toNat_inj.mp hlowest

/-- A word with bits above the 48th has the text of the pattern below them. -/
theorem word_with_high_bits_read_back :
    (∃ pattern, ofHex (toHex 0xABCDC00040000000) = .ok pattern ∧
      fields pattern = ⟨1, 0x4000, 0x40000000⟩) ∧
    (0xC00040000000 : UInt64).toNat < 2 ^ 48 ∧
    (0xABCDC00040000000 % 0x1000000000000 : UInt64).toNat < 2 ^ 48 ∧
    toHex 0xC00040000000 = toHex (0xABCDC00040000000 % 0x1000000000000) ∧
    (0xC00040000000 : UInt64) = 0xABCDC00040000000 % 0x1000000000000 := by
  obtain ⟨-, htext, hdistinct⟩ := read_back_from_hex
  obtain ⟨-, pattern, hread, -, -, hfields⟩ := htext 0xABCDC00040000000
  have hsame : toHex 0xC00040000000 = toHex (0xABCDC00040000000 % 0x1000000000000) := by decide
  exact ⟨⟨pattern, hread, hfields.trans (by decide)⟩, by decide, by decide, hsame,
    hdistinct _ _ (by decide) (by decide) hsame⟩

end Float48
end SicDebugger
