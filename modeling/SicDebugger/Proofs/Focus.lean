import SicDebugger.Proofs.Listings
import SicDebugger.Proofs.Trimming

/-!
# Focusing on an instruction

Only a row with code is an instruction. To focus on an address is to look for a listing with the
instruction there: the active one if it has it, else the first that does. Where there is none, the
active listing stays. So the place that becomes active depends on nothing but the rows and the place
that was active, and not even on that where one listing alone has the instruction.
-/

namespace SicDebugger

/-! ## Instructions -/

variable {pc : UInt32} {file : String} {row : UInt64} {i : Nat}

namespace ListingRow

variable {r : ListingRow}

/-- A directive or a comment: a row whose code is blank. -/
def IsBare (r : ListingRow) : Prop := ∀ c ∈ r.rawCodeHex.toList, Text.isBlank c = true

/-- A row with code, at its address. -/
structure IsInstructionAt (r : ListingRow) (pc : UInt32) : Prop where
  code : ¬ r.IsBare
  address : r.address? = some pc

lemma hasCode_iff : r.hasCode = true ↔ ¬ r.IsBare := by
  rw [hasCode, Bool.not_eq_true', Bool.eq_false_iff, ne_eq, List.isEmpty_iff,
    Text.trimChars_eq_nil_iff, IsBare]

lemma executesAt_iff : r.executesAt pc = true ↔ r.IsInstructionAt pc := by
  rw [executesAt, Bool.and_eq_true, hasCode_iff, beq_iff_eq]
  constructor
  · rintro ⟨hcode, haddress⟩
    exact ⟨hcode, haddress⟩
  · rintro ⟨hcode, haddress⟩
    exact ⟨hcode, haddress⟩

end ListingRow

namespace Listing

variable {l : Listing}

/-- The row of the number is there and is the instruction at the address. -/
def InstructionAt (l : Listing) (row : UInt64) (pc : UInt32) : Prop :=
  ∃ r, l.rows[row.toNat]? = some r ∧ r.IsInstructionAt pc

lemma containsPc_iff : l.containsPc pc = true ↔ ∃ r ∈ l.rows, r.IsInstructionAt pc := by
  rw [containsPc, pcRow?, List.findIdx?_isSome, List.any_eq_true]
  simp only [ListingRow.executesAt_iff]

lemma executesAt_iff : l.executesAt row pc = true ↔ l.InstructionAt row pc := by
  rw [executesAt, Option.any_eq_true]
  simp only [ListingRow.executesAt_iff, InstructionAt]

end Listing

namespace ListingIndex

variable {x : ListingIndex} {place place' : Option Nat}

/-! ## Places -/

/-- The listing at a place has the instruction at the address. -/
def HasAt (x : ListingIndex) (pc : UInt32) (i : Nat) : Prop :=
  ∃ l, x.listings[i]? = some l ∧ ∃ r ∈ l.rows, r.IsInstructionAt pc

/-- The place that is active once the instruction at the address has been looked for. -/
inductive Focuses (x : ListingIndex) (pc : UInt32) : Option Nat → Prop
  | stays {i : Nat} (hactive : x.active = some i) (hi : x.HasAt pc i) : Focuses x pc (some i)
  | switches {i : Nat} (hactive : ∀ j, x.active = some j → ¬ x.HasAt pc j) (hi : x.HasAt pc i)
      (hfirst : ∀ j < i, ¬ x.HasAt pc j) : Focuses x pc (some i)
  | nowhere (hnone : ∀ i, ¬ x.HasAt pc i) : Focuses x pc x.active

/-- Only one place can become active. -/
theorem Focuses.unique (h : x.Focuses pc place) (h' : x.Focuses pc place') : place = place' := by
  cases h with
  | stays hi hat =>
    cases h' with
    | stays hj _ => exact hi.symm.trans hj
    | switches hactive _ _ => exact absurd hat (hactive _ hi)
    | nowhere hnone => exact absurd hat (hnone _)
  | @switches i hactive hat hfirst =>
    cases h' with
    | stays hj hat' => exact absurd hat' (hactive _ hj)
    | @switches j _ hat' hfirst' =>
      rcases Nat.lt_trichotomy i j with hlt | rfl | hlt
      · exact absurd hat (hfirst' i hlt)
      · rfl
      · exact absurd hat' (hfirst j hlt)
    | nowhere hnone => exact absurd hat (hnone _)
  | nowhere hnone =>
    cases h' with
    | stays _ hat => exact absurd hat (hnone _)
    | switches _ hat _ => exact absurd hat (hnone _)
    | nowhere _ => rfl

lemma hasAt_iff {l : Listing} (hl : x.listings[i]? = some l) :
    x.HasAt pc i ↔ l.containsPc pc = true := by
  rw [Listing.containsPc_iff]
  constructor
  · rintro ⟨l', hl', hr⟩
    rw [hl] at hl'
    cases hl'
    exact hr
  · intro hr
    exact ⟨l, hl, hr⟩

lemma any_activeListing?_iff : x.activeListing?.any (·.containsPc pc) = true ↔
    ∃ i, x.active = some i ∧ x.HasAt pc i := by
  rw [Option.any_eq_true, activeListing?]
  constructor
  · rintro ⟨l, hl, hpc⟩
    obtain ⟨i, hi, hl⟩ := Option.bind_eq_some_iff.mp hl
    exact ⟨i, hi, (hasAt_iff hl).mpr hpc⟩
  · rintro ⟨i, hi, hat⟩
    obtain ⟨l, hl, _⟩ := id hat
    exact ⟨l, by rw [hi, Option.bind_some, hl], (hasAt_iff hl).mp hat⟩

lemma findIdx?_containsPc (h : x.listings.findIdx? (·.containsPc pc) = some i) :
    x.HasAt pc i ∧ ∀ j < i, ¬ x.HasAt pc j := by
  obtain ⟨hlt, hpc, hfirst⟩ := List.findIdx?_eq_some_iff_getElem.mp h
  refine ⟨(hasAt_iff (List.getElem?_eq_getElem hlt)).mpr hpc, ?_⟩
  intro j hj hat
  exact hfirst j hj ((hasAt_iff (List.getElem?_eq_getElem (Nat.lt_trans hj hlt))).mp hat)

lemma not_hasAt_of_findIdx? (h : x.listings.findIdx? (·.containsPc pc) = none) (i : Nat) :
    ¬ x.HasAt pc i := by
  intro hat
  obtain ⟨l, hl, _⟩ := id hat
  have hfalse : l.containsPc pc = false :=
    List.findIdx?_eq_none_iff.mp h l (List.mem_of_getElem? hl)
  rw [(hasAt_iff hl).mp hat] at hfalse
  cases hfalse

theorem focuses_focus (x : ListingIndex) (pc : UInt32) :
    x.Focuses pc (x.focus pc).1.active := by
  unfold focus
  split
  · next hactive =>
    obtain ⟨i, hi, hat⟩ := any_activeListing?_iff.mp hactive
    show x.Focuses pc x.active
    rw [hi]
    exact .stays hi hat
  · next hactive =>
    split
    · next i hfirst =>
      obtain ⟨hat, hfirst⟩ := findIdx?_containsPc hfirst
      refine .switches ?_ hat hfirst
      intro j hj hat
      exact hactive (any_activeListing?_iff.mpr ⟨j, hj, hat⟩)
    · next hnone => exact .nowhere (not_hasAt_of_findIdx? hnone)

/-- The file that focusing gives is that of a listing which was not active before. -/
lemma focus_eq_some_iff : (x.focus pc).2 = some file ↔
    (x.focus pc).1.active ≠ x.active ∧ (x.focus pc).1.activeFile? = some file := by
  unfold focus
  split
  · simp
  · next hactive =>
    split
    · next i hfirst =>
      have hswitch : some i ≠ x.active := by
        intro heq
        exact hactive (any_activeListing?_iff.mpr ⟨i, heq.symm, (findIdx?_containsPc hfirst).1⟩)
      exact (and_iff_right hswitch).symm
    · simp

/-- Where one listing alone has the instruction, it becomes active. -/
lemma focus_of_unique (hi : x.HasAt pc i) (hunique : ∀ j, x.HasAt pc j → j = i) :
    (x.focus pc).1 = { x with active := some i } := by
  rw [focus_listings]
  have hfocuses := focuses_focus x pc
  generalize (x.focus pc).1.active = place at hfocuses
  cases hfocuses with
  | stays _ hj => rw [hunique _ hj]
  | switches _ hj _ => rw [hunique _ hj]
  | nowhere hnone => exact absurd hi (hnone i)

end ListingIndex
end SicDebugger
