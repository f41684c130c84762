import SicDebugger.Proofs.Codec
import SicDebugger.Proofs.PathText
import SicDebugger.Proofs.Trimming
import SicDebugger.Registers
import Mathlib.Tactic.IntervalCases
import Mathlib.Tactic.Lemma

/-!
# Register sets and their texts

The text of a set of registers lists the names of its registers and, as one hexadecimal number, the
bits that stand for none. Each part says which bits it adds, so reading the text brings back every
one of the sixteen bits.
-/

namespace SicDebugger

/-! ## Parts between bars -/

namespace Text

/-- A blank in front only adds to the first part, and is trimmed. -/
lemma map_trimChars_split_blank (s : List Char) :
    (split '|' (' ' :: s)).map trimChars = (split '|' s).map trimChars := by
  obtain ⟨q, rest, hsplit⟩ := List.exists_cons_of_ne_nil (split_ne_nil '|' s)
  simp only [split, hsplit]
  rfl

/-- Parts without blanks and bars are found between bars with blanks around them. -/
lemma map_trimChars_split_intercalate (parts : List (List Char)) (hne : parts ≠ [])
    (h : ∀ p ∈ parts, ∀ c ∈ p, isBlank c = false ∧ c ≠ '|') :
    (split '|' (" | ".toList.intercalate parts)).map trimChars = parts := by
  induction parts with
  | nil => contradiction
  | cons p parts ih =>
    have hp := h p List.mem_cons_self
    have hbar : '|' ∉ p := fun hmem => (hp '|' hmem).2 rfl
    have htrim := fun c hc => (hp c hc).1
    cases parts with
    | nil =>
      rw [List.intercalate_singleton, split_eq_splitOn, List.splitOn_eq_singleton hbar, List.map_singleton,
        trimChars_eq_self htrim]
    | cons q parts =>
      have hrest := ih (List.cons_ne_nil q parts) fun p hp => h p (List.mem_cons_of_mem _ hp)
      rw [List.intercalate_cons_cons,
        show ∀ r : List Char, p ++ " | ".toList ++ r = (p ++ [' ']) ++ '|' :: ' ' :: r by simp,
        split_eq_splitOn, List.splitOn_append_cons_self_of_not_mem (by simpa using hbar),
        ← split_eq_splitOn, List.map_cons, trimChars_append_blank htrim, map_trimChars_split_blank,
        hrest]

end Text

/-! ## The parts of a set -/

namespace RegisterSet

/-- The text of a register's name reads as the set of this register alone. -/
lemma ofPart?_name (r : Register) : ofPart? r.name.toList = some (ofPred (· == r)) := by
  cases r <;> decide

/-- A number behind its mark reads as the set with these bits. -/
lemma ofPart?_hexPlain {n : Nat} (hn : n < UInt16.size) :
    ofPart? ("0x" ++ Text.hexPlain n).toList = some ⟨UInt16.ofNat n⟩ := by
  have hread := Text.readNumeral?_toDigits (by decide : 1 < 16) (by decide) hn
  simp only [String.toList_append, Text.hexPlain, String.toList_ofList]
  rw [show "0x".toList = ['0', 'x'] from rfl, List.cons_append, List.cons_append, List.nil_append,
    ofPart?, hread]
  rfl

/-- The bits that stand for no register. -/
def others (s : RegisterSet) : Nat := s.bits.toNat / Nat.pow 2 9 * Nat.pow 2 9

lemma others_lt (s : RegisterSet) : s.others < UInt16.size :=
  (Nat.div_mul_le_self ..).trans_lt s.bits.toNat_lt

/-- The parts of a set's text, as they are written. -/
def parts (s : RegisterSet) : List String :=
  (Register.all.filter s.contains).map Register.name ++
    if s.others = 0 then [] else ["0x" ++ Text.hexPlain s.others]

lemma toList_toText (s : RegisterSet) :
    s.toText.toList = " | ".toList.intercalate (s.parts.map String.toList) :=
  String.toList_intercalate

/-- No part has a blank or a bar. -/
lemma mem_parts {s : RegisterSet} {p : String} (hp : p ∈ s.parts) {c : Char} (hc : c ∈ p.toList) :
    Text.isBlank c = false ∧ c ≠ '|' := by
  let plain := fun c => !Text.isBlank c && c != '|'
  have hplain : ∀ {s : List Char}, s.all plain = true → ∀ c ∈ s, Text.isBlank c = false ∧ c ≠ '|' :=
    fun h c hc => by simpa [plain] using List.all_eq_true.mp h c hc
  have hdigit : ∀ d < 16, Text.isBlank d.digitChar = false ∧ d.digitChar ≠ '|' := by decide
  rcases List.mem_append.mp hp with hp | hp
  · obtain ⟨r, -, rfl⟩ := List.mem_map.mp hp
    exact hplain (by cases r <;> rfl) c hc
  · split at hp
    · cases hp
    · obtain rfl := List.mem_singleton.mp hp
      simp only [String.toList_append, Text.hexPlain, String.toList_ofList] at hc
      rcases List.mem_append.mp hc with hc | hc
      · exact hplain (by rfl) c hc
      · obtain ⟨d, hd, rfl⟩ := Text.mem_toDigits (by decide : 1 < 16) hc
        exact hdigit d hd

/-- The sets that the parts of a text read as. -/
def singles (s : RegisterSet) : List RegisterSet :=
  (Register.all.filter s.contains).map (fun r => ofPred (· == r)) ++
    if s.others = 0 then [] else [⟨UInt16.ofNat s.others⟩]

lemma mapM_ofPart?_parts (s : RegisterSet) :
    (s.parts.map String.toList).mapM ofPart? = some s.singles := by
  have hnames : ((Register.all.filter s.contains).map fun r => r.name.toList).mapM ofPart? =
      some ((Register.all.filter s.contains).map fun r => ofPred (· == r)) :=
    Json.mapM_map_eq_some fun r _ => ofPart?_name r
  rw [parts, List.map_append, List.mapM_append, List.map_map,
    show String.toList ∘ Register.name = fun r => r.name.toList from rfl, hnames, singles]
  split
  · simp
  · simp only [List.map_cons, List.map_nil, List.mapM_cons, List.mapM_nil,
      ofPart?_hexPlain s.others_lt]
    rfl

/-- The text of a set reads as the union of what its parts read as. -/
lemma ofText?_toText_eq (s : RegisterSet) :
    ofText? s.toText = some (s.singles.foldl union empty) := by
  have hparts := mapM_ofPart?_parts s
  by_cases hnone : s.parts = []
  · -- the empty text reads as the empty set
    have htext : s.toText.toList = [] := by rw [toList_toText, hnone]; rfl
    rw [hnone] at hparts
    rw [ofText?, htext, ← Option.some.inj hparts]
    rfl
  · have hsplit := Text.map_trimChars_split_intercalate (s.parts.map String.toList)
      (by simpa using hnone) (by
        simp only [List.mem_map]
        rintro _ ⟨p, hp, rfl⟩ c hc
        exact mem_parts hp hc)
    rw [← toList_toText] at hsplit
    have htrim : Text.trimChars s.toText.toList ≠ [] := by
      -- a blank text is one part, and that says nothing
      intro htrim
      have hblank := Text.trimChars_eq_nil_iff.mp htrim
      have hbar : '|' ∉ s.toText.toList := fun hmem => by
        have := hblank '|' hmem
        contradiction
      rw [Text.split_eq_splitOn, List.splitOn_eq_singleton hbar, List.map_singleton, htrim] at hsplit
      rw [← hsplit] at hparts
      cases hparts
    rw [ofText?, if_neg (by simpa using htrim)]
    rw [← hsplit, List.mapM_map] at hparts
    exact congrArg (Option.map (List.foldl union empty)) hparts

/-! ## Bits -/

lemma testBit_foldl_union (sets : List RegisterSet) (t : RegisterSet) (i : Nat) :
    (sets.foldl union t).bits.toNat.testBit i =
      (t.bits.toNat.testBit i || sets.any (·.bits.toNat.testBit i)) := by
  induction sets generalizing t with
  | nil => simp
  | cons s sets ih =>
    rw [List.foldl_cons, ih, List.any_cons]
    simp [union, Bool.or_assoc]

lemma toNat_single (r : Register) : (ofPred (· == r)).bits.toNat = 2 ^ r.place := by
  cases r <;> decide

/-- The other bits are those from the ninth on. -/
lemma testBit_others (s : RegisterSet) (i : Nat) :
    s.others.testBit i = (decide (9 ≤ i) && s.bits.toNat.testBit i) := by
  rw [others, Nat.pow_eq, Nat.testBit_mul_two_pow, Nat.testBit_div_two_pow]
  by_cases hi : 9 ≤ i
  · simp [hi]
  · simp [hi]

/-- The bits that the parts add are those of the set. -/
lemma any_testBit_singles (s : RegisterSet) (i : Nat) :
    s.singles.any (·.bits.toNat.testBit i) = s.bits.toNat.testBit i := by
  have hothers : (if s.others = 0 then [] else [(⟨UInt16.ofNat s.others⟩ : RegisterSet)]).any
      (·.bits.toNat.testBit i) = s.others.testBit i := by
    split
    · simp [*]
    · simp only [List.any_cons, List.any_nil, Bool.or_false]
      rw [UInt16.toNat_ofNat', Nat.mod_eq_of_lt s.others_lt]
  rw [singles, List.any_append, hothers, testBit_others, List.any_map, List.any_filter]
  simp only [Function.comp_def, toNat_single, Nat.testBit_two_pow]
  by_cases hi : 9 ≤ i
  · have hplace : ∀ r : Register, r.place ≠ i := by
      intro r
      cases r <;> simp only [Register.place] <;> omega
    simp [hi, hplace]
  · -- each of the nine bits below is that of one register
    have hcases : i < 9 := by omega
    interval_cases i <;> simp [Register.all, Register.place, contains]

/-- **A set of registers is read back from its text**, the bits without a name included. -/
theorem ofText?_toText (s : RegisterSet) : ofText? s.toText = some s := by
  have hbits : (s.singles.foldl union empty).bits = s.bits := by
    refine UInt16.toNat_inj.mp (Nat.eq_of_testBit_eq fun i => ?_)
    rw [testBit_foldl_union, any_testBit_singles]
    simp [empty]
  rw [ofText?_toText_eq, show s.singles.foldl union empty = ⟨(s.singles.foldl union empty).bits⟩
    from rfl, hbits]

end RegisterSet
end SicDebugger
