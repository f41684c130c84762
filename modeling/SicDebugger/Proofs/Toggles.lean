import SicDebugger.Proofs.Listings
import Mathlib.Algebra.Ring.Parity

/-!
# Toggling breakpoints

A toggle is ignored where its file is listed without the row; else it turns the one breakpoint over
and leaves all others alone. Which toggles are ignored depends on the listings, and these change
only when new ones are taken or when they are cleared. So a toggle undoes itself, toggles can change
places, and between two changes of the listings the number of toggles that were not ignored decides
what has become of a breakpoint.
-/

namespace SicDebugger

namespace ListingOperation

/-- Whether an operation is one that leaves the listings alone. -/
def KeepsListings : ListingOperation → Prop
  | replace _ => False
  | clear => False
  | select _ => True
  | toggle .. => True
  | focus _ => True

/-- Whether an operation on an index is a toggle of a row that is not ignored. -/
def turns (x : ListingIndex) (file : String) (row : UInt64) : ListingOperation → Bool
  | toggle file' row' => decide (file' = file ∧ row' = row) && !x.ignoresToggle file' row'
  | _ => false

/-- The number of toggles of a row that are not ignored when their turn comes. -/
def countTurns (file : String) (row : UInt64) : ListingIndex → List ListingOperation → Nat
  | _, [] => 0
  | x, o :: operations =>
    (o.turns x file row).toNat + countTurns file row (o.apply x) operations

end ListingOperation

namespace ListingIndex

variable {x y : ListingIndex} {file file' : String} {row row' : UInt64} {o : ListingOperation}

/-! ## One toggle -/

/-- A toggle is ignored exactly if its file is listed without the row. -/
lemma ignoresToggle_iff (x : ListingIndex) (file : String) (row : UInt64) :
    x.ignoresToggle file row = true ↔
      ∃ l, x.get? file = some l ∧ l.rows.length ≤ row.toNat := by
  rw [ignoresToggle, Option.any_eq_true]
  simp only [decide_eq_true_eq]

lemma toggle_of_ignores (h : x.ignoresToggle file row = true) : x.toggle file row = x :=
  if_pos h

lemma toggle_of_heeds (h : x.ignoresToggle file row = false) :
    x.toggle file row = { x with breakpoints := x.breakpoints.toggle file row } :=
  if_neg (Bool.eq_false_iff.mp h)

/-- All that a toggle changes are the breakpoints. -/
lemma toggle_eq (x : ListingIndex) (file : String) (row : UInt64) :
    x.toggle file row = { x with breakpoints := (x.toggle file row).breakpoints } := by
  cases h : x.ignoresToggle file row with
  | true => rw [toggle_of_ignores h]
  | false => rw [toggle_of_heeds h]

/-- A toggle does not change which toggles are ignored. -/
lemma turns_toggle (x : ListingIndex) (file file' : String) (row row' : UInt64)
    (o : ListingOperation) : o.turns (x.toggle file row) file' row' = o.turns x file' row' := by
  rw [toggle_eq]
  rfl

/-- A toggle that is not ignored turns its breakpoint over. No toggle changes another one. -/
lemma has_toggle (x : ListingIndex) (file file' : String) (row row' : UInt64) :
    (x.toggle file row).breakpoints.has file' row' =
      (x.breakpoints.has file' row' ^^
        ListingOperation.turns x file' row' (.toggle file row)) := by
  cases h : x.ignoresToggle file row with
  | true => simp [toggle_of_ignores h, ListingOperation.turns, h]
  | false =>
    rw [toggle_of_heeds h, ListingOperation.turns, h, Breakpoints.has_toggle]
    by_cases hself : file = file' ∧ row = row'
    · simp [hself]
    · rw [if_neg hself, decide_eq_false hself, Bool.false_and, Bool.xor_false]

/-- A toggle that changes nothing was ignored. -/
lemma toggle_eq_self_iff (x : ListingIndex) (file : String) (row : UInt64) :
    x.toggle file row = x ↔ x.ignoresToggle file row = true := by
  refine ⟨?_, toggle_of_ignores⟩
  intro hself
  rw [← Bool.not_eq_false]
  intro hheeds
  have hhas := has_toggle x file file row row
  rw [hself, ListingOperation.turns, hheeds] at hhas
  simp at hhas

/-- No row that is ignored has a breakpoint. -/
lemma Valid.has_of_ignores (h : x.Valid) (hignores : x.ignoresToggle file row = true) :
    x.breakpoints.has file row = false := by
  obtain ⟨l, hl, hle⟩ := (ignoresToggle_iff x file row).mp hignores
  rw [Bool.eq_false_iff]
  intro hhas
  exact Nat.not_lt.mpr hle (h.row_lt file row l hl hhas)

/-- A toggle answers whether the row has a breakpoint afterwards. -/
lemma Valid.toggleSets_eq (h : x.Valid) (file : String) (row : UInt64) :
    x.toggleSets file row = (x.toggle file row).breakpoints.has file row := by
  rw [toggleSets, has_toggle, ListingOperation.turns]
  cases hignores : x.ignoresToggle file row with
  | true => simp [h.has_of_ignores hignores]
  | false => simp

/-! ## Toggles after toggles -/

/-- Indices that differ in the breakpoints alone are equal if they have the same ones. -/
lemma Valid.ext (h : x.Valid) (h' : y.Valid)
    (hxy : y = { x with breakpoints := y.breakpoints })
    (hsame : ∀ file row, x.breakpoints.has file row = y.breakpoints.has file row) : x = y := by
  rw [hxy, ← h.noneEmpty.ext h'.noneEmpty hsame]

/-- A toggle undoes itself. -/
lemma Valid.toggle_toggle (h : x.Valid) (file : String) (row : UInt64) :
    (x.toggle file row).toggle file row = x := by
  symm
  apply h.ext ((h.toggle file row).toggle file row)
  · rw [toggle_eq, toggle_eq x]
  · intro file' row'
    rw [has_toggle, has_toggle, turns_toggle, Bool.xor_assoc, Bool.xor_self, Bool.xor_false]

/-- Toggles can change places. -/
lemma Valid.toggle_comm (h : x.Valid) (file file' : String) (row row' : UInt64) :
    (x.toggle file row).toggle file' row' = (x.toggle file' row').toggle file row := by
  apply ((h.toggle file row).toggle file' row').ext ((h.toggle file' row').toggle file row)
  · rw [toggle_eq (x.toggle file' row'), toggle_eq x file' row', toggle_eq (x.toggle file row),
      toggle_eq x file row]
  · intro file'' row''
    rw [has_toggle, has_toggle, has_toggle, has_toggle, turns_toggle, turns_toggle,
      Bool.xor_right_comm]

/-! ## Any number of toggles -/

/-- Of the operations that leave the listings alone, a toggle that is not ignored turns its
breakpoint over and nothing else does. -/
lemma has_apply (ho : o.KeepsListings) (x : ListingIndex) (file : String) (row : UInt64) :
    (o.apply x).breakpoints.has file row =
      (x.breakpoints.has file row ^^ o.turns x file row) := by
  cases o with
  | toggle file' row' => exact has_toggle x file' file row' row
  | replace => exact ho.elim
  | clear => exact ho.elim
  | select file' =>
    rw [breakpoints_apply (o := .select file') trivial]
    exact (Bool.xor_false _).symm
  | focus pc =>
    rw [breakpoints_apply (o := .focus pc) trivial]
    exact (Bool.xor_false _).symm

/-- One more toggle turns the parity over. -/
lemma decide_odd_toNat_add (b : Bool) (n : Nat) :
    decide (Odd (b.toNat + n)) = (b ^^ decide (Odd n)) := by
  cases b with
  | false => rw [Bool.toNat_false, Nat.zero_add, Bool.false_xor]
  | true =>
    rw [Bool.toNat_true, Nat.add_comm, Bool.true_xor, ← decide_not]
    exact decide_eq_decide.mpr Nat.odd_add_one

/-- The number of toggles decides what becomes of a breakpoint. -/
lemma has_foldl {operations : List ListingOperation} (h : ∀ o ∈ operations, o.KeepsListings)
    (x : ListingIndex) (file : String) (row : UInt64) :
    (operations.foldl ListingOperation.apply x).breakpoints.has file row =
      (x.breakpoints.has file row ^^
        decide (Odd (ListingOperation.countTurns file row x operations))) := by
  induction operations generalizing x with
  | nil => simp [ListingOperation.countTurns]
  | cons o operations ih =>
    rw [List.foldl_cons, ih fun o' ho' => h o' (List.mem_cons_of_mem o ho'),
      has_apply (h o List.mem_cons_self), ListingOperation.countTurns, Bool.xor_assoc,
      decide_odd_toNat_add]

/-- Toggles of an index, however it came about. A toggle undoes itself and leaves no file without
breakpoints behind; toggles can change places; a toggle answers whether the row has a breakpoint
afterwards; it is ignored exactly if its file is listed without the row, and then alone it changes
nothing. While the listings stay, a row has a breakpoint if it had one at first and an even number
of toggles was not ignored, or if it had none and an odd number was not. -/
theorem toggles_are_involutive (operations : List ListingOperation) :
    let x := operations.foldl ListingOperation.apply {}
    (∀ file row, (x.toggle file row).toggle file row = x ∧
      (x.toggle file row).breakpoints.NoneEmpty) ∧
    (∀ file row file' row', (file, row) ≠ (file', row') →
      (x.toggle file row).toggle file' row' = (x.toggle file' row').toggle file row) ∧
    (∀ file row, x.toggleSets file row = (x.toggle file row).breakpoints.has file row) ∧
    (∀ file row, (x.ignoresToggle file row = true ↔
        ∃ l, x.get? file = some l ∧ l.rows.length ≤ row.toNat) ∧
      (x.toggle file row = x ↔ x.ignoresToggle file row = true)) ∧
    ∀ more : List ListingOperation, (∀ o ∈ more, o.KeepsListings) → ∀ file row,
      (more.foldl ListingOperation.apply x).breakpoints.has file row =
        (x.breakpoints.has file row ^^
          decide (Odd (ListingOperation.countTurns file row x more))) := by
  intro x
  have hvalid : x.Valid := valid_empty.foldl operations
  refine ⟨?_, ?_, hvalid.toggleSets_eq, ?_, ?_⟩
  · intro file row
    exact ⟨hvalid.toggle_toggle file row, (hvalid.toggle file row).noneEmpty⟩
  · intro file row file' row' _
    exact hvalid.toggle_comm file file' row row'
  · intro file row
    exact ⟨ignoresToggle_iff x file row, toggle_eq_self_iff x file row⟩
  · intro more hmore file row
    exact has_foldl hmore x file row

/-- A program of two rows is loaded after a breakpoint was set in a source that it does not have.
-/
def beforeToggles : List ListingOperation :=
  [.toggle "sub.asm" 5, .replace [⟨"main.asm", [{}, {}]⟩], .toggle "sub.asm" 5]

/-- Toggles of two sources, one of them behind the last row, with the focus moved between them. -/
def manyToggles : List ListingOperation :=
  [.toggle "main.asm" 1, .toggle "main.asm" 7, .focus 0, .toggle "main.asm" 1,
    .toggle "sub.asm" 5, .select "main.asm", .toggle "main.asm" 1]

/-- Three toggles set a breakpoint, one takes it away, and one is ignored. -/
theorem toggles_of_two_sources :
    let x := beforeToggles.foldl ListingOperation.apply {}
    let y := manyToggles.foldl ListingOperation.apply x
    (∀ o ∈ manyToggles, o.KeepsListings) ∧
    y.breakpoints.has "main.asm" 1 = true ∧ y.breakpoints.has "main.asm" 7 = false ∧
    x.breakpoints.has "sub.asm" 5 = true ∧ y.breakpoints.has "sub.asm" 5 = false ∧
    ("main.asm", (1 : UInt64)) ≠ ("sub.asm", 5) ∧
    (x.toggle "main.asm" 1).toggle "sub.asm" 5 = (x.toggle "sub.asm" 5).toggle "main.asm" 1 := by
  intro x y
  obtain ⟨_, hcomm, _, _, hparity⟩ := toggles_are_involutive beforeToggles
  have hkeep : ∀ o ∈ manyToggles, o.KeepsListings := by
    intro o ho
    simp only [manyToggles, List.mem_cons, List.not_mem_nil, or_false] at ho
    rcases ho with rfl | rfl | rfl | rfl | rfl | rfl | rfl <;> trivial
  have hhas := hparity manyToggles hkeep
  have hne : ("main.asm", (1 : UInt64)) ≠ ("sub.asm", 5) := by decide
  refine ⟨hkeep, ?_, ?_, ?_, ?_, hne, hcomm _ _ _ _ hne⟩
  · rw [hhas]
    decide +kernel
  · rw [hhas]
    decide +kernel
  · decide +kernel
  · rw [hhas]
    decide +kernel

end ListingIndex
end SicDebugger
