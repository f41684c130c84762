import SicDebugger.Text.Numeral
import Mathlib.Data.Nat.Digits.Defs
import Mathlib.Tactic.Lemma
import Mathlib.Tactic.Ring

/-!
# What numerals denote

A numeral is an optional plus sign and one or more digits, and it denotes their value in its radix,
however many zeros stand in front. The reader gives this value if it is below the bound and nothing
otherwise, and it reads what the printers write.
-/

namespace SicDebugger.Text

/-- A text is a numeral of the radix and denotes the number. -/
def Denotes (radix : Nat) (s : List Char) (n : Nat) : Prop :=
  ∃ c r digits, (s = c :: r ∨ s = '+' :: c :: r) ∧
    (c :: r).mapM (digitValue? radix) = some digits ∧ n = Nat.ofDigits radix digits.reverse

section

variable {radix bound n m : Nat} {s : List Char}

/-! ## Values of digits -/

/-- Digits behind a number continue it. -/
lemma foldl_digits (radix n : Nat) (digits : List Nat) :
    digits.foldl (fun n d => n * radix + d) n =
      n * radix ^ digits.length + Nat.ofDigits radix digits.reverse := by
  induction digits generalizing n with
  | nil => simp
  | cons d rest ih =>
    rw [List.foldl_cons, ih, List.reverse_cons, Nat.ofDigits_append, Nat.ofDigits_singleton,
      List.length_reverse, List.length_cons]
    ring

/-- A value never falls while digits are read. -/
lemma le_foldl_digits (hradix : 0 < radix) (n : Nat) (digits : List Nat) :
    n ≤ digits.foldl (fun n d => n * radix + d) n := by
  rw [foldl_digits]
  exact (Nat.le_mul_of_pos_right n (Nat.pow_pos hradix)).trans (Nat.le_add_right ..)

lemma digitValue?_plus (radix : Nat) : digitValue? radix '+' = none := by
  unfold digitValue?
  rfl

/-- A digit has the same value in every radix that it belongs to. -/
lemma digitValue?_of_lt {c : Char} (h : digitValue? radix c = some n) {other : Nat}
    (hn : n < other) : digitValue? other c = some n := by
  unfold digitValue? at h ⊢
  rw [Option.filter_eq_some_iff] at h ⊢
  exact ⟨h.1, by simpa using hn⟩

lemma digitValue?_digitChar (hradix : radix ≤ 16) (h : n < radix) :
    digitValue? radix n.digitChar = some n := by
  have hwide : ∀ n < 16, digitValue? 16 n.digitChar = some n := by decide
  exact digitValue?_of_lt (hwide n (h.trans_le hradix)) h

lemma digitValue?_hexDigit (h : n < 16) : digitValue? 16 (hexDigit n) = some n := by
  have hwide : ∀ n < 16, digitValue? 16 (hexDigit n) = some n := by decide
  exact hwide n h

/-! ## Reading -/

/-- The reader goes through iff every character is a digit and the value is below the bound. -/
lemma readDigits_eq_ok_iff (hradix : 0 < radix) (hn : n < bound) :
    readDigits radix bound n s = .ok m ↔ ∃ digits, s.mapM (digitValue? radix) = some digits ∧
      m = digits.foldl (fun n d => n * radix + d) n ∧ m < bound := by
  induction s generalizing n with
  | nil =>
    simp only [readDigits, List.mapM_nil, Except.ok.injEq]
    constructor
    · rintro rfl
      exact ⟨[], rfl, rfl, hn⟩
    · rintro ⟨_, ⟨⟩, rfl, -⟩
      rfl
  | cons c r ih =>
    rw [readDigits, List.mapM_cons]
    cases hc : digitValue? radix c with
    | none => simp
    | some d =>
      dsimp only
      split
      case isTrue hlt =>
        rw [ih hlt]
        constructor
        · rintro ⟨digits, hdigits, hm, hbound⟩
          exact ⟨d :: digits, by simp [hdigits], hm, hbound⟩
        · rintro ⟨digits, hdigits, hm, hbound⟩
          simp only [Option.pure_def, Option.bind_eq_bind, Option.bind_some,
            Option.bind_eq_some_iff] at hdigits
          obtain ⟨rest, hrest, ⟨⟩⟩ := hdigits
          exact ⟨rest, hrest, hm, hbound⟩
      case isFalse hge =>
        -- the value is already too large, and it never falls
        refine iff_of_false nofun ?_
        rintro ⟨digits, hdigits, hm, hbound⟩
        simp only [Option.pure_def, Option.bind_eq_bind, Option.bind_some,
          Option.bind_eq_some_iff] at hdigits
        obtain ⟨rest, hrest, ⟨⟩⟩ := hdigits
        have := le_foldl_digits hradix (n * radix + d) rest
        rw [List.foldl_cons] at hm
        omega

/-- Behind its sign a numeral is read digit by digit. -/
lemma readNumeral?_cons {c : Char} {r : List Char} (hc : c = '+' → r = []) :
    readNumeral? radix bound (c :: r) = (readDigits radix bound 0 (c :: r)).toOption := by
  unfold readNumeral? readNumeral
  split
  · contradiction
  · rename_i h
    cases h
    exact absurd (hc rfl) (by simp)
  · rfl

/-- A numeral is read iff it denotes a number below the bound. -/
theorem readNumeral?_eq_some_iff (hradix : 0 < radix) (hbound : 0 < bound) :
    readNumeral? radix bound s = some n ↔ Denotes radix s n ∧ n < bound := by
  have hread : ∀ t, (readDigits radix bound 0 t).toOption = some n ↔
      (∃ digits, t.mapM (digitValue? radix) = some digits ∧
        n = Nat.ofDigits radix digits.reverse) ∧ n < bound := by
    intro t
    rw [show (readDigits radix bound 0 t).toOption = some n ↔ readDigits radix bound 0 t = .ok n by
        cases readDigits radix bound 0 t <;> simp [Except.toOption],
      readDigits_eq_ok_iff hradix hbound]
    simp only [foldl_digits, Nat.zero_mul, Nat.zero_add]
    grind
  match s with
  | [] => simp [readNumeral?, readNumeral, Except.toOption, Denotes]
  | c :: r =>
    by_cases hplus : c = '+' ∧ r ≠ []
    · obtain ⟨rfl, hr⟩ := hplus
      obtain ⟨d, t, rfl⟩ := List.exists_cons_of_ne_nil hr
      rw [show readNumeral? radix bound ('+' :: d :: t) =
        (readDigits radix bound 0 (d :: t)).toOption from rfl, hread]
      refine and_congr_left fun _ => ⟨?_, ?_⟩
      · rintro ⟨digits, hdigits, rfl⟩
        exact ⟨d, t, digits, .inr rfl, hdigits, rfl⟩
      · rintro ⟨c, r, digits, h | h, hdigits, rfl⟩
        · -- the sign itself is no digit
          cases h
          simp [List.mapM_cons, digitValue?_plus] at hdigits
        · cases h
          exact ⟨digits, hdigits, rfl⟩
    · rw [readNumeral?_cons fun hc => by_contra fun hr => hplus ⟨hc, hr⟩, hread]
      refine and_congr_left fun _ => ⟨?_, ?_⟩
      · rintro ⟨digits, hdigits, rfl⟩
        exact ⟨c, r, digits, .inl rfl, hdigits, rfl⟩
      · rintro ⟨d, t, digits, h | h, hdigits, rfl⟩
        · cases h
          exact ⟨digits, hdigits, rfl⟩
        · cases h
          exact absurd ⟨rfl, by simp⟩ hplus

/-! ## What is printed -/

/-- The printed digits are digits of the number. -/
lemma mapM_toDigits (hbase : 1 < radix) (hradix : radix ≤ 16) (n : Nat) :
    ∃ digits, (Nat.toDigits radix n).mapM (digitValue? radix) = some digits ∧
      n = Nat.ofDigits radix digits.reverse := by
  induction n using Nat.strongRecOn with
  | ind n ih =>
    by_cases hn : n < radix
    · refine ⟨[n], ?_, by simp⟩
      rw [Nat.toDigits_of_lt_base hn]
      simp [digitValue?_digitChar hradix hn]
    · obtain ⟨digits, hdigits, hvalue⟩ := ih (n / radix) (Nat.div_lt_self (by omega) hbase)
      refine ⟨digits ++ [n % radix], ?_, ?_⟩
      · rw [Nat.toDigits_of_base_le hbase (by omega), List.mapM_append, hdigits]
        simp [digitValue?_digitChar hradix (Nat.mod_lt n (by omega))]
      · rw [List.reverse_append, List.reverse_singleton, List.singleton_append, Nat.ofDigits_cons,
          ← hvalue]
        exact (Nat.mod_add_div n radix).symm

/-- Nothing but digits of the radix is printed. -/
lemma mem_toDigits (hbase : 1 < radix) {c : Char} (hc : c ∈ Nat.toDigits radix n) :
    ∃ d < radix, c = d.digitChar := by
  induction n using Nat.strongRecOn with
  | ind n ih =>
    by_cases hn : n < radix
    · rw [Nat.toDigits_of_lt_base hn, List.mem_singleton] at hc
      exact ⟨n, hn, hc⟩
    · rw [Nat.toDigits_of_base_le hbase (by omega), List.mem_append, List.mem_singleton] at hc
      rcases hc with hc | hc
      · exact ih (n / radix) (Nat.div_lt_self (by omega) hbase) hc
      · exact ⟨n % radix, Nat.mod_lt n (by omega), hc⟩

/-- A printed number denotes itself. -/
theorem denotes_toDigits (hbase : 1 < radix) (hradix : radix ≤ 16) (n : Nat) :
    Denotes radix (Nat.toDigits radix n) n := by
  obtain ⟨digits, hdigits, hvalue⟩ := mapM_toDigits hbase hradix n
  obtain ⟨c, r, h⟩ := List.exists_cons_of_ne_nil (Nat.toDigits_ne_nil (b := radix) (n := n))
  exact ⟨c, r, digits, .inl h, h ▸ hdigits, hvalue⟩

/-- A printed number below the bound is read back. -/
theorem readNumeral?_toDigits (hbase : 1 < radix) (hradix : radix ≤ 16) (hn : n < bound) :
    readNumeral? radix bound (Nat.toDigits radix n) = some n :=
  (readNumeral?_eq_some_iff (by omega) (by omega)).mpr ⟨denotes_toDigits hbase hradix n, hn⟩

/-- A fixed number of printed digits are the lowest ones of the number. -/
lemma mapM_hexFixed (width n : Nat) :
    ∃ digits, (hexFixed width n).mapM (digitValue? 16) = some digits ∧
      n % 16 ^ width = Nat.ofDigits 16 digits.reverse := by
  induction width generalizing n with
  | zero => exact ⟨[], rfl, Nat.mod_one n⟩
  | succ width ih =>
    obtain ⟨digits, hdigits, hvalue⟩ := ih (n / 16)
    refine ⟨digits ++ [n % 16], ?_, ?_⟩
    · rw [hexFixed, List.mapM_append, hdigits]
      simp [digitValue?_hexDigit (Nat.mod_lt n (by omega))]
    · rw [List.reverse_append, List.reverse_singleton, List.singleton_append, Nat.ofDigits_cons,
        ← hvalue, Nat.pow_succ, Nat.mul_comm, Nat.mod_mul]

/-- Nothing but upper-case digits is printed. -/
lemma mem_hexFixed {width : Nat} {c : Char} (hc : c ∈ hexFixed width n) :
    ∃ d < 16, c = hexDigit d := by
  induction width generalizing n with
  | zero => cases hc
  | succ width ih =>
    rw [hexFixed, List.mem_append, List.mem_singleton] at hc
    rcases hc with hc | hc
    · exact ih hc
    · exact ⟨n % 16, Nat.mod_lt n (by omega), hc⟩

/-- A fixed number of printed digits, at least one, is read back as the lowest digits. -/
theorem readNumeral?_hexFixed (width n : Nat) (hbound : 16 ^ (width + 1) ≤ bound) :
    readNumeral? 16 bound (hexFixed (width + 1) n) = some (n % 16 ^ (width + 1)) := by
  have hlt : n % 16 ^ (width + 1) < bound :=
    (Nat.mod_lt n (Nat.pow_pos (by decide))).trans_le hbound
  obtain ⟨digits, hdigits, hvalue⟩ := mapM_hexFixed (width + 1) n
  have hne : hexFixed (width + 1) n ≠ [] := by
    intro hnil
    have := length_hexFixed (width + 1) n
    simp [hnil] at this
  obtain ⟨c, r, h⟩ := List.exists_cons_of_ne_nil hne
  exact (readNumeral?_eq_some_iff (by decide) (by omega)).mpr
    ⟨⟨c, r, digits, .inl h, h ▸ hdigits, hvalue⟩, hlt⟩

end

end SicDebugger.Text
