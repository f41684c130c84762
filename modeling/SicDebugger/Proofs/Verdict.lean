import SicDebugger.Proofs.Focus
import SicDebugger.Session
import Mathlib.Logic.ExistsUnique

/-!
# The verdict on a step

A step ends the program if it leaves the program counter where it was. Any other step focuses on the
instruction at the program counter and then looks for the first breakpoint of the active listing on
that instruction.
-/

namespace SicDebugger

variable {pc : UInt32} {file : String} {row : UInt64}

/-! ## The first breakpoint -/

/-- What is found first in an ascending list is the least of what can be found. -/
lemma find?_eq_some_iff_least {l : List UInt64} {p : UInt64 → Bool} (h : l.Pairwise (· < ·)) :
    l.find? p = some row ↔
      (row ∈ l ∧ p row = true) ∧ ∀ row' < row, ¬ (row' ∈ l ∧ p row' = true) := by
  induction l with
  | nil => simp
  | cons a l ih =>
    obtain ⟨ha, hl⟩ := List.pairwise_cons.mp h
    by_cases hpa : p a = true
    · rw [List.find?_cons_of_pos hpa, Option.some.injEq]
      constructor
      · rintro rfl
        refine ⟨⟨List.mem_cons_self, hpa⟩, ?_⟩
        rintro row' hlt ⟨hmem, -⟩
        rcases List.mem_cons.mp hmem with rfl | hmem
        · exact UInt64.lt_irrefl _ hlt
        · exact UInt64.lt_asymm hlt (ha row' hmem)
      · rintro ⟨⟨hmem, -⟩, hleast⟩
        rcases List.mem_cons.mp hmem with rfl | hmem
        · rfl
        · exact absurd ⟨List.mem_cons_self, hpa⟩ (hleast a (ha row hmem))
    · -- `a` is not to be found, so that it is in the list makes no difference
      rw [List.find?_cons_of_neg hpa, ih hl]
      have hskip : ∀ row', (row' ∈ a :: l ∧ p row' = true) ↔ (row' ∈ l ∧ p row' = true) := by
        intro row'
        rw [List.mem_cons]
        constructor
        · rintro ⟨rfl | hmem, hp⟩
          · exact absurd hp hpa
          · exact ⟨hmem, hp⟩
        · rintro ⟨hmem, hp⟩
          exact ⟨.inr hmem, hp⟩
      simp only [hskip]

namespace Breakpoints

lemma mem_list {b : Breakpoints} : row ∈ b.list file ↔ b.has file row = true := by
  rw [list, Std.ExtTreeSet.mem_toList, Std.ExtTreeSet.mem_iff_contains, has]

lemma pairwise_list (b : Breakpoints) (file : String) : (b.list file).Pairwise (· < ·) := by
  refine Std.ExtTreeSet.ordered_toList.imp ?_
  intro row row' hlt
  exact Std.compare_eq_lt.mp hlt

end Breakpoints

namespace ListingIndex

variable {x : ListingIndex}

/-- A breakpoint of the active listing is the instruction at the address. -/
def Hits (x : ListingIndex) (pc : UInt32) (file : String) (row : UInt64) : Prop :=
  x.breakpoints.has file row = true ∧
    ∃ l, x.activeListing? = some l ∧ l.file = file ∧ l.InstructionAt row pc

lemma breakpointHit?_eq_some_iff : x.breakpointHit? pc = some (file, row) ↔
    x.Hits pc file row ∧ ∀ row' < row, ¬ x.Hits pc file row' := by
  unfold breakpointHit? Hits
  cases x.activeListing? with
  | none => simp
  | some l =>
    rw [Option.bind_some, Option.map_eq_some_iff]
    simp only [find?_eq_some_iff_least (x.breakpoints.pairwise_list l.file), Breakpoints.mem_list,
      Listing.executesAt_iff, Option.some.injEq, exists_eq_left']
    constructor
    · rintro ⟨row', ⟨⟨hhas, hat⟩, hleast⟩, heq⟩
      cases heq
      refine ⟨⟨hhas, rfl, hat⟩, ?_⟩
      rintro row'' hlt ⟨hhas', -, hat'⟩
      exact hleast row'' hlt ⟨hhas', hat'⟩
    · rintro ⟨⟨hhas, rfl, hat⟩, hleast⟩
      refine ⟨row, ⟨⟨hhas, hat⟩, ?_⟩, rfl⟩
      rintro row' hlt ⟨hhas', hat'⟩
      exact hleast row' hlt ⟨hhas', rfl, hat'⟩

end ListingIndex

/-! ## Steps -/

namespace Session

variable {s : Session} {next : RegisterSnapshot}

/-- The session with another listing active. -/
def withActive (s : Session) (active : Option Nat) : Session :=
  { s with listings := { s.listings with active } }

/-- What a step does and reports that does not end the program. -/
structure GoesOn (s : Session) (next : RegisterSnapshot) (after : Session) (report : StepReport) :
    Prop where
  focuses : s.listings.Focuses next.pc after.listings.active
  after_eq : after = { s with
    registers := s.registers.replace next
    listings := { s.listings with active := after.listings.active } }
  focused_iff : ∀ (file : String), report.focused = some file ↔
    after.listings.active ≠ s.listings.active ∧ after.listings.activeFile? = some file
  /-- The breakpoint that is hit is the first one on the instruction. -/
  hit_iff : ∀ (file : String) (row : UInt64), report.verdict = .breakpointHit file row ↔
    after.listings.Hits next.pc file row ∧ ∀ row' < row, ¬ after.listings.Hits next.pc file row'

lemma applyStep_of_pc (h : s.registers.pc = some next.pc) :
    s.applyStep next = ({ s with registers := s.registers.replace next },
      ⟨.finished, (s.registers.replace next).changed, none⟩) := by
  unfold applyStep
  rw [if_pos h]

/-- The verdict on an index whose focus has moved. -/
def verdictOn (x : ListingIndex) (pc : UInt32) : StepVerdict :=
  match x.breakpointHit? pc with
  | some (file, row) => .breakpointHit file row
  | none => .continue

lemma verdictOn_ne_finished (x : ListingIndex) (pc : UInt32) : verdictOn x pc ≠ .finished := by
  unfold verdictOn
  split <;> exact StepVerdict.noConfusion

lemma verdictOn_eq_iff {x : ListingIndex} : verdictOn x pc = .breakpointHit file row ↔
    x.Hits pc file row ∧ ∀ row' < row, ¬ x.Hits pc file row' := by
  rw [← ListingIndex.breakpointHit?_eq_some_iff]
  unfold verdictOn
  split
  · next f r hit => rw [hit, StepVerdict.breakpointHit.injEq, Option.some.injEq, Prod.mk.injEq]
  · next hit =>
    rw [hit]
    constructor <;> intro h <;> cases h

lemma applyStep_of_ne (h : s.registers.pc ≠ some next.pc) :
    s.applyStep next =
      ({ s with
        registers := s.registers.replace next
        listings := (s.listings.focus next.pc).1 },
      ⟨verdictOn (s.listings.focus next.pc).1 next.pc, (s.registers.replace next).changed,
        (s.listings.focus next.pc).2⟩) := by
  unfold applyStep
  rw [if_neg h]
  rfl

lemma verdict_eq_finished_iff :
    (s.applyStep next).2.verdict = .finished ↔ s.registers.pc = some next.pc := by
  by_cases hpc : s.registers.pc = some next.pc
  · rw [applyStep_of_pc hpc]
    exact ⟨fun _ => hpc, fun _ => rfl⟩
  · rw [applyStep_of_ne hpc]
    exact ⟨fun h => absurd h (verdictOn_ne_finished _ _), fun h => absurd h hpc⟩

lemma goesOn_applyStep (h : s.registers.pc ≠ some next.pc) :
    s.GoesOn next (s.applyStep next).1 (s.applyStep next).2 := by
  rw [applyStep_of_ne h]
  refine ⟨ListingIndex.focuses_focus _ _, ?_, ?_, ?_⟩
  · rw [← ListingIndex.focus_listings]
  · intro file
    exact ListingIndex.focus_eq_some_iff
  · intro file row
    exact verdictOn_eq_iff

/-- The verdict on a step is exact: finished where the program counter stays, else the first
breakpoint on the instruction in the listing that becomes active, which is never a directive or a
comment. Which listing was active before does not matter where only one has the instruction. -/
theorem step_verdict_exact (s : Session) (next : RegisterSnapshot) :
    ((s.applyStep next).2.verdict = .finished ↔
      ∃ r, s.registers.snapshot = some r ∧ r.pc = next.pc) ∧
    ((s.applyStep next).2.verdict = .finished →
      (s.applyStep next).1 = { s with registers := s.registers.replace next } ∧
        (s.applyStep next).2.focused = none) ∧
    ((s.applyStep next).2.verdict ≠ .finished →
      s.GoesOn next (s.applyStep next).1 (s.applyStep next).2) ∧
    (∀ l row r, (s.applyStep next).1.listings.activeListing? = some l →
      l.rows[row.toNat]? = some r → r.IsBare →
      (s.applyStep next).2.verdict ≠ .breakpointHit l.file row) ∧
    ((∃! i, s.listings.HasAt next.pc i) → ∀ active : Option Nat,
      ((s.withActive active).applyStep next).2.verdict = (s.applyStep next).2.verdict) := by
  refine ⟨?_, ?_, ?_, ?_, ?_⟩
  · rw [verdict_eq_finished_iff, RegisterCache.pc, Option.map_eq_some_iff]
  · intro hfinished
    rw [applyStep_of_pc (verdict_eq_finished_iff.mp hfinished)]
    exact ⟨rfl, rfl⟩
  · intro hon
    exact goesOn_applyStep fun hpc => hon (verdict_eq_finished_iff.mpr hpc)
  · intro l row r hl hr hbare hhit
    have hpc : s.registers.pc ≠ some next.pc := by
      intro hpc
      rw [verdict_eq_finished_iff.mpr hpc] at hhit
      cases hhit
    obtain ⟨⟨-, l', hl', -, r', hr', hat⟩, -⟩ := ((goesOn_applyStep hpc).hit_iff _ _).mp hhit
    rw [hl] at hl'
    cases hl'
    rw [hr] at hr'
    cases hr'
    exact hat.code hbare
  · rintro ⟨i, hi, hunique⟩ active
    by_cases hpc : s.registers.pc = some next.pc
    · rw [verdict_eq_finished_iff.mpr hpc]
      exact verdict_eq_finished_iff.mpr hpc
    · -- either way the one listing becomes active
      have hfocus : ((s.withActive active).listings.focus next.pc).1 =
          (s.listings.focus next.pc).1 := by
        rw [ListingIndex.focus_of_unique hi hunique,
          ListingIndex.focus_of_unique (x := (s.withActive active).listings) hi hunique]
        rfl
      rw [applyStep_of_ne hpc, applyStep_of_ne (s := s.withActive active) hpc, hfocus]

/-- Two listings, the second of them active. The first has a directive and an instruction at one
address, and a breakpoint on each. -/
def directiveFirst : Session where
  registers := { snapshot := some { pc := 3 } }
  listings := {
    listings := [⟨"main.asm", [{ addressHex := "00006" },
      { addressHex := "00006", rawCodeHex := "4B2000" }]⟩, ⟨"lib.asm", []⟩]
    active := some 1
    breakpoints := ((∅ : Breakpoints).toggle "main.asm" 0).toggle "main.asm" 1 }
  memory := { range := ⟨0, 7, by decide⟩ }

/-- The breakpoint on the directive is passed over, whichever listing was active, and a step that
stays where it is ends the program. -/
theorem step_passes_over_directive :
    (directiveFirst.applyStep { pc := 6 }).2.verdict = .breakpointHit "main.asm" 1 ∧
    directiveFirst.GoesOn { pc := 6 } (directiveFirst.applyStep { pc := 6 }).1
      (directiveFirst.applyStep { pc := 6 }).2 ∧
    (directiveFirst.applyStep { pc := 6 }).2.verdict ≠ .breakpointHit "main.asm" 0 ∧
    (∀ active, ((directiveFirst.withActive active).applyStep { pc := 6 }).2.verdict =
      .breakpointHit "main.asm" 1) ∧
    (directiveFirst.applyStep { pc := 3 }).2.verdict = .finished ∧
    (directiveFirst.applyStep { pc := 3 }).2.focused = none := by
  have hhit : (directiveFirst.applyStep { pc := 6 }).2.verdict = .breakpointHit "main.asm" 1 := by
    rfl
  have hfinished : (directiveFirst.applyStep { pc := 3 }).2.verdict = .finished := by
    rfl
  have honly : ∃! i, directiveFirst.listings.HasAt 6 i := by
    refine ⟨0, (ListingIndex.hasAt_iff rfl).mpr rfl, ?_⟩
    rintro (_ | _ | i) ⟨l, hl, r, hr, _⟩
    · rfl
    · cases hl
      cases hr
    · cases hl
  have hbare : ListingRow.IsBare { addressHex := "00006" } := by
    intro c hc
    cases hc
  obtain ⟨_, _, hgoes, hpass, hsame⟩ := step_verdict_exact directiveFirst { pc := 6 }
  obtain ⟨_, hends, _⟩ := step_verdict_exact directiveFirst { pc := 3 }
  refine ⟨hhit, hgoes ?_, hpass _ 0 _ rfl rfl hbare, ?_, hfinished, (hends hfinished).2⟩
  · rw [hhit]
    exact StepVerdict.noConfusion
  · intro active
    rw [hsame honly active, hhit]

end Session
end SicDebugger
