import SicDebugger.Proofs.Numerals
import SicDebugger.Proofs.Trimming
import Mathlib.Data.List.Forall2

/-!
# Hexadecimal texts

A hexadecimal text has digits of either case, one at least, behind an optional plus sign and a mark,
and there may be blanks around. Its value is that of the digits. A text has one mark and one value
at most, so behind its mark it is read by the reader of numerals alone.
-/

namespace SicDebugger.Text

variable {s t digits mark : List Char} {values : List Nat} {n m : Nat} {c : Char}

/-- The characters are hexadecimal digits of the values, in either case. -/
def HexDigits (digits : List Char) (values : List Nat) : Prop :=
  List.Forall₂ (fun c v => v < 16 ∧ (c = v.digitChar ∨ c = v.digitChar.toUpper)) digits values

/-- Behind a mark and an optional plus sign the text has hexadecimal digits, one at least, with
nothing but blanks around; and they have the value. -/
def HexText (mark : List Char) (text : String) (n : Nat) : Prop :=
  ∃ sign digits values, Surrounds text.toList (mark ++ (sign ++ digits)) ∧
    (sign = [] ∨ sign = ['+']) ∧ digits ≠ [] ∧ HexDigits digits values ∧
    n = Nat.ofDigits 16 values.reverse

/-- The text has one mark at most, `0x` or `0X`, and the value. -/
def HexNumber (text : String) (n : Nat) : Prop :=
  HexText [] text n ∨ HexText ['0', 'x'] text n ∨ HexText ['0', 'X'] text n

/-! ## Digits -/

/-- A character with the code of a digit is the digit. -/
lemma eq_ofNat_of_toNat (h : c.toNat = n) : c = Char.ofNat n := by
  rw [← h, Char.ofNat_toNat]

/-- The reader takes the digits of either case, each with its value. -/
lemma digitValue?_eq_some_iff :
    digitValue? 16 c = some n ↔ n < 16 ∧ (c = n.digitChar ∨ c = n.digitChar.toUpper) := by
  have hnumeral : ∀ n < 16, n < 10 → Char.ofNat (n + 48) = n.digitChar := by decide
  have hlower : ∀ n < 16, 10 ≤ n → Char.ofNat (n + 87) = n.digitChar := by decide
  have hupper : ∀ n < 16, 10 ≤ n → Char.ofNat (n + 55) = n.digitChar.toUpper := by decide
  constructor
  · intro h
    unfold digitValue? at h
    obtain ⟨hvalue, hlt⟩ := Option.filter_eq_some_iff.mp h
    rw [decide_eq_true_eq] at hlt
    refine ⟨hlt, ?_⟩
    -- in each range of codes the value is how far the code is from the first digit of the range
    split_ifs at hvalue with h9 hz hZ <;> rw [Option.some.injEq] at hvalue
    · have hfirst : 48 ≤ c.toNat := h9.1
      have hlast : c.toNat ≤ 57 := h9.2
      rw [show '0'.toNat = 48 from rfl] at hvalue
      rw [← hnumeral n hlt (by omega)]
      exact .inl (eq_ofNat_of_toNat (by omega))
    · have hfirst : 97 ≤ c.toNat := hz.1
      rw [show 'a'.toNat = 97 from rfl] at hvalue
      rw [← hlower n hlt (by omega)]
      exact .inl (eq_ofNat_of_toNat (by omega))
    · have hfirst : 65 ≤ c.toNat := hZ.1
      rw [show 'A'.toNat = 65 from rfl] at hvalue
      rw [← hupper n hlt (by omega)]
      exact .inr (eq_ofNat_of_toNat (by omega))
  · rintro ⟨hlt, rfl | rfl⟩
    · exact digitValue?_digitChar le_rfl hlt
    · have hwide : ∀ n < 16, digitValue? 16 n.digitChar.toUpper = some n := by decide
      exact hwide n hlt

lemma mapM_digitValue?_eq_some_iff :
    digits.mapM (digitValue? 16) = some values ↔ HexDigits digits values := by
  rw [HexDigits]
  induction digits generalizing values with
  | nil => simp [eq_comm]
  | cons c r ih =>
    simp only [List.mapM_cons, Option.pure_def, Option.bind_eq_bind, Option.bind_eq_some_iff,
      Option.some.injEq, List.forall₂_cons_left_iff, ih, digitValue?_eq_some_iff]
    constructor
    · rintro ⟨v, hv, rest, hrest, rfl⟩
      exact ⟨v, rest, hv, hrest, rfl⟩
    · rintro ⟨v, rest, hv, hrest, rfl⟩
      exact ⟨v, hv, rest, hrest, rfl⟩

lemma mem_hexDigits (h : HexDigits digits values) (hc : c ∈ digits) :
    ∃ v < 16, c = v.digitChar ∨ c = v.digitChar.toUpper := by
  induction h with
  | nil => cases hc
  | cons hfirst _ ih =>
    rcases List.mem_cons.mp hc with rfl | hc
    · exact ⟨_, hfirst⟩
    · exact ih hc

/-! ## Numerals -/

/-- A numeral with hexadecimal digits, as its sign and its digits. -/
lemma denotes_iff : Denotes 16 t n ↔ ∃ sign digits values, t = sign ++ digits ∧
    (sign = [] ∨ sign = ['+']) ∧ digits ≠ [] ∧ HexDigits digits values ∧
    n = Nat.ofDigits 16 values.reverse := by
  simp only [Denotes, mapM_digitValue?_eq_some_iff]
  constructor
  · rintro ⟨c, r, values, rfl | rfl, hdigits, hn⟩
    · exact ⟨[], c :: r, values, rfl, .inl rfl, by simp, hdigits, hn⟩
    · exact ⟨['+'], c :: r, values, rfl, .inr rfl, by simp, hdigits, hn⟩
  · rintro ⟨sign, digits, values, rfl, hsign, hne, hdigits, hn⟩
    obtain ⟨c, r, rfl⟩ := List.exists_cons_of_ne_nil hne
    exact ⟨c, r, values, by rcases hsign with rfl | rfl <;> simp, hdigits, hn⟩

/-- What holds of the plus sign and of all digits holds of what stands in a numeral. -/
lemma forall_mem_denotes {P : Char → Prop} (h : Denotes 16 t n) (hplus : P '+')
    (hdigit : ∀ v < 16, P v.digitChar ∧ P v.digitChar.toUpper) : ∀ c ∈ t, P c := by
  obtain ⟨sign, digits, values, rfl, hsign, -, hdigits, -⟩ := denotes_iff.mp h
  intro c hc
  rcases List.mem_append.mp hc with hc | hc
  · rcases hsign with rfl | rfl
    · cases hc
    · rwa [List.mem_singleton.mp hc]
  · obtain ⟨v, hv, rfl | rfl⟩ := mem_hexDigits hdigits hc
    · exact (hdigit v hv).1
    · exact (hdigit v hv).2

lemma isBlank_of_mem_denotes (h : Denotes 16 t n) : ∀ c ∈ t, isBlank c = false :=
  forall_mem_denotes h rfl (by decide)

/-- A numeral denotes one number. -/
lemma Denotes.unique (hn : Denotes 16 t n) (hm : Denotes 16 t m) : n = m := by
  -- the reader of numerals gives one number, and with a bound past both it gives either
  have hread : ∀ k, Denotes 16 t k → k ≤ n + m →
      readNumeral? 16 (n + m + 1) t = some k := fun k hk hle =>
    (readNumeral?_eq_some_iff (by decide) (by omega)).mpr ⟨hk, by omega⟩
  have hsame := (hread n hn (by omega)).symm.trans (hread m hm (by omega))
  exact Option.some.inj hsame

/-! ## Texts with a mark -/

/-- Behind its mark a hexadecimal text is a numeral, once it is trimmed. -/
lemma hexText_iff {text : String} (hmark : ∀ c ∈ mark, isBlank c = false) :
    HexText mark text n ↔ ∃ t, trimChars text.toList = mark ++ t ∧ Denotes 16 t n := by
  have hplain : ∀ t, Denotes 16 t n → ∀ c ∈ mark ++ t, isBlank c = false := by
    intro t ht c hc
    exact (List.mem_append.mp hc).elim (hmark c) (isBlank_of_mem_denotes ht c)
  constructor
  -- no blank stands in the mark or in the numeral, so trimming ends at them
  · rintro ⟨sign, digits, values, htext, hsign, hne, hdigits, hn⟩
    have ht : Denotes 16 (sign ++ digits) n :=
      denotes_iff.mpr ⟨sign, digits, values, rfl, hsign, hne, hdigits, hn⟩
    exact ⟨sign ++ digits, trimChars_of_surrounds (hplain _ ht) htext, ht⟩
  · rintro ⟨t, htext, ht⟩
    obtain ⟨sign, digits, values, rfl, hsign, hne, hdigits, hn⟩ := denotes_iff.mp ht
    exact ⟨sign, digits, values, htext ▸ surrounds_trimChars text.toList, hsign, hne, hdigits, hn⟩

end SicDebugger.Text
