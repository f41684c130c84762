import SicDebugger.Registers
import Mathlib.Data.List.DropRight
import Mathlib.Data.Nat.Bitwise
import Mathlib.Tactic.Lemma

/-!
# Changed registers

Every register has a content: a number, the double that its text denotes, or a text that denotes
none. Two snapshots differ in a register exactly if its contents differ, so the flags of a
comparison inherit their laws from equality, and the pattern of the float register depends on its
content only. The cache compares the last two snapshots that it was given since it was cleared.
-/

namespace SicDebugger

/-! ## Sets picked by a condition -/

namespace RegisterSet

variable {p : Register → Bool} {bits place i : ℕ}

lemma testBit_add_two_pow (h : bits < 2 ^ place) :
    (bits + 2 ^ place).testBit i = (bits.testBit i || place == i) := by
  have hor : 2 ^ place + bits = 2 ^ place ||| bits := by
    simpa using Nat.two_pow_add_eq_or_of_lt h 1
  rw [Nat.add_comm, hor, Nat.testBit_or, Nat.testBit_two_pow, Bool.or_comm]
  rfl

/-- Adding up the bits of registers whose places ascend sets these bits and no other. -/
lemma testBit_foldl_places (p : Register → Bool) (rs : List Register)
    (hascend : rs.Pairwise (·.place < ·.place)) (hfree : ∀ r ∈ rs, bits < 2 ^ r.place) :
    (rs.foldl (fun bits r => if p r then bits + Nat.pow 2 r.place else bits) bits).testBit i =
      (bits.testBit i || rs.any fun r => p r && r.place == i) := by
  induction rs generalizing bits with
  | nil => simp
  | cons r rs ih =>
    obtain ⟨hbelow, hascend⟩ := List.pairwise_cons.mp hascend
    have hr := hfree r List.mem_cons_self
    have hrest : ∀ s ∈ rs, bits < 2 ^ s.place := fun s hs => hfree s (List.mem_cons_of_mem _ hs)
    rw [List.foldl_cons, List.any_cons]
    cases hp : p r with
    | false => simpa using ih hascend hrest
    | true =>
      -- the sum so far stays below the places that are still to come
      have hnext : ∀ s ∈ rs, bits + 2 ^ r.place < 2 ^ s.place := by
        intro s hs
        calc bits + 2 ^ r.place < 2 ^ r.place + 2 ^ r.place := Nat.add_lt_add_right hr _
          _ = 2 ^ (r.place + 1) := by rw [Nat.pow_succ, Nat.mul_two]
          _ ≤ 2 ^ s.place := Nat.pow_le_pow_right (by decide) (hbelow s hs)
      rw [if_pos rfl, Nat.pow_eq, ih hascend hnext, testBit_add_two_pow hr, Bool.or_assoc,
        Bool.true_and]

/-- The set that a condition picks has exactly the registers that meet it. -/
lemma contains_ofPred (p : Register → Bool) (r : Register) : (ofPred p).contains r = p r := by
  have hascend : Register.all.Pairwise (·.place < ·.place) := by decide
  have hplace : r.place < 16 := by cases r <;> decide
  rw [contains, ofPred, UInt16.toNat_ofNat', Nat.testBit_mod_two_pow,
    testBit_foldl_places p Register.all hascend fun s _ => Nat.two_pow_pos s.place]
  cases r <;> simp [Register.all, Register.place]

end RegisterSet

/-! ## Contents of registers -/

namespace RegisterSnapshot

variable {p q : RegisterSnapshot} {r : Register} {f g : String}

/-- The number in a register other than the float register. -/
def number? (p : RegisterSnapshot) : Register → Option UInt32
  | .A => some p.a
  | .X => some p.x
  | .L => some p.l
  | .S => some p.s
  | .T => some p.t
  | .B => some p.b
  | .SW => some p.sw
  | .PC => some p.pc
  | .F => none

/-- The double that a text of the float register denotes. -/
def double? (text : String) : Option Binary64 := Binary64.ofText? (Text.trim text)

/-- What a register holds: a number, a double, or a text that denotes no double. -/
inductive Content where
  | number (n : UInt32)
  | double (x : Binary64)
  | text (s : String)

/-- The content of the float register. -/
def floatContent (text : String) : Content := (double? text).elim (.text text) .double

/-- The content of a register. -/
def content (p : RegisterSnapshot) (r : Register) : Content :=
  (p.number? r).elim (floatContent p.f) .number

lemma content_F (p : RegisterSnapshot) : p.content .F = floatContent p.f := by
  rw [content, number?, Option.elim_none]

lemma floatContent_of_double {x : Binary64} (h : double? f = some x) :
    floatContent f = .double x := by
  rw [floatContent, h, Option.elim_some]

lemma floatContent_of_none (h : double? f = none) : floatContent f = .text f := by
  rw [floatContent, h, Option.elim_none]

/-- Texts of the float register differ if their contents do. A text that denotes a double never
equals one that denotes none, so comparing such a pair as texts is comparing their contents. -/
lemma floatDiffers_iff : floatDiffers f g = true ↔ floatContent f ≠ floatContent g := by
  have hne : double? f ≠ double? g → f ≠ g := mt (congrArg double?)
  rw [floatDiffers, ← double?, ← double?]
  cases hf : double? f with
  | none =>
    rw [floatContent_of_none hf]
    cases hg : double? g with
    | none => simp [floatContent_of_none hg]
    | some y => simpa [floatContent_of_double hg] using hne (by simp [hf, hg])
  | some x =>
    rw [floatContent_of_double hf]
    cases hg : double? g with
    | none => simpa [floatContent_of_none hg] using hne (by simp [hf, hg])
    | some y =>
      obtain ⟨x⟩ := x
      obtain ⟨y⟩ := y
      simp [floatContent_of_double hg]

/-- Snapshots differ in a register exactly if its contents differ. -/
lemma differs_iff : p.differs q r = true ↔ p.content r ≠ q.content r := by
  cases r
  case F => rw [differs, content_F, content_F, floatDiffers_iff]
  all_goals simp [differs, content, number?]

/-- A register is flagged exactly if its contents differ. -/
lemma contains_diff_iff : (p.diff q).contains r = true ↔ p.content r ≠ q.content r := by
  rw [diff, RegisterSet.contains_ofPred, differs_iff]

lemma contains_diff_eq_false_iff : (p.diff q).contains r = false ↔ p.content r = q.content r := by
  rw [← Bool.not_eq_true, contains_diff_iff, not_not]

lemma content_eq_iff (h : r ≠ .F) : p.content r = q.content r ↔ p.number? r = q.number? r := by
  cases r
  case F => contradiction
  all_goals simp [content, number?]

/-! ## The pattern of the float register -/

/-- The pattern of a content, where it has one. -/
def Content.hex? : Content → Option String
  | .double x => if x.isNaN then none else some (Float48.toHex (Float48.encode x))
  | _ => none

/-- The pattern of the float register depends on its content only. -/
lemma toOption_floatHex (p : RegisterSnapshot) :
    p.floatHex.toOption = (p.content .F).hex? := by
  rw [floatHex, Float48.hexOfDecimal, Float48.ofDecimal, ← double?, content_F]
  cases hp : double? p.f with
  | none =>
    rw [floatContent_of_none hp]
    rfl
  | some x =>
    rw [floatContent_of_double hp]
    dsimp only [Content.hex?]
    split <;> rfl

/-- Float registers with one content have both no pattern, or the same one. -/
lemma floatHex_of_content_eq (h : p.content .F = q.content .F) :
    (∃ e e', p.floatHex = .error e ∧ q.floatHex = .error e') ∨
      ∃ hex, p.floatHex = .ok hex ∧ q.floatHex = .ok hex := by
  have hsame : p.floatHex.toOption = q.floatHex.toOption := by
    rw [toOption_floatHex, toOption_floatHex, h]
  cases hp : p.floatHex with
  | error e =>
    cases hq : q.floatHex with
    | error e' => exact .inl ⟨e, e', rfl, rfl⟩
    | ok hex => simp [hp, hq, Except.toOption] at hsame
  | ok hex =>
    cases hq : q.floatHex with
    | error e => simp [hp, hq, Except.toOption] at hsame
    | ok hex' =>
      simp only [hp, hq, Except.toOption, Option.some.injEq] at hsame
      exact .inr ⟨hex, rfl, congrArg _ hsame.symm⟩

end RegisterSnapshot

/-! ## The cache -/

namespace RegisterCache

/-- What may be done to a cache. -/
inductive Operation where
  | replace (next : RegisterSnapshot)
  | clear

/-- The snapshot that an operation brings. -/
def Operation.snapshot? : Operation → Option RegisterSnapshot
  | .replace next => some next
  | .clear => none

/-- The cache after an operation. -/
def apply (c : RegisterCache) : Operation → RegisterCache
  | .replace next => c.replace next
  | .clear => c.clear

/-- A new cache after some operations. -/
def run (ops : List Operation) : RegisterCache := ops.foldl apply {}

/-- The snapshots brought since the cache was last cleared, in order. -/
def sinceClear (ops : List Operation) : List RegisterSnapshot :=
  (ops.rtakeWhile (·.snapshot?.isSome)).filterMap Operation.snapshot?

/-- What changed from the last but one of some snapshots to the last. -/
def lastChange (taken : List RegisterSnapshot) : RegisterSet :=
  match taken.reverse with
  | last :: previous :: _ => previous.diff last
  | _ => .empty

variable {c : RegisterCache} {taken : List RegisterSnapshot}

lemma sinceClear_replace (ops : List Operation) (next : RegisterSnapshot) :
    sinceClear (ops ++ [.replace next]) = sinceClear ops ++ [next] := by
  rw [sinceClear, List.rtakeWhile_concat_pos _ _ _ rfl, List.filterMap_append]
  rfl

lemma sinceClear_clear (ops : List Operation) : sinceClear (ops ++ [.clear]) = [] := by
  rw [sinceClear, List.rtakeWhile_concat_neg _ _ _ Bool.false_ne_true]
  rfl

lemma lastChange_concat (taken : List RegisterSnapshot) (next : RegisterSnapshot) :
    lastChange (taken ++ [next]) = taken.getLast?.elim .empty (·.diff next) := by
  rw [lastChange, List.reverse_concat, List.getLast?_eq_head?_reverse]
  cases taken.reverse <;> rfl

/-- A cache holds the last of some snapshots and what changed with it. -/
structure Follows (c : RegisterCache) (taken : List RegisterSnapshot) : Prop where
  snapshot_eq : c.snapshot = taken.getLast?
  changed_eq : c.changed = lastChange taken

lemma follows_clear (c : RegisterCache) : c.clear.Follows [] where
  snapshot_eq := rfl
  changed_eq := rfl

lemma Follows.replace (h : c.Follows taken) (next : RegisterSnapshot) :
    (c.replace next).Follows (taken ++ [next]) where
  snapshot_eq := by rw [RegisterCache.replace, List.getLast?_concat]
  changed_eq := by rw [RegisterCache.replace, h.snapshot_eq, lastChange_concat]

/-- A cache holds the last snapshot since it was cleared, whatever was done to it before. -/
lemma follows_run (ops : List Operation) : (run ops).Follows (sinceClear ops) := by
  -- from the end: the last operation adds its snapshot to those before it, or drops them all
  induction ops using List.reverseRecOn with
  | nil => exact follows_clear {}
  | append_singleton ops op ih =>
    rw [run, List.foldl_concat, ← run]
    cases op with
    | replace next =>
      rw [sinceClear_replace]
      exact ih.replace next
    | clear =>
      rw [sinceClear_clear]
      exact follows_clear (run ops)

end RegisterCache

/-- **The set of changed registers is coherent.** Comparing snapshots flags a register both ways or
neither, never against the same snapshot, and between two snapshots only if it is flagged on the way
over any third. A register other than the float register is flagged exactly if its number differs,
and a float register that is not flagged has the same pattern or in neither snapshot one. A cache
reports the difference of the last two snapshots since it was cleared, and nothing while there are
fewer than two. -/
theorem changes_cohere :
    (∀ (a b : RegisterSnapshot) (r : Register), (a.diff b).contains r = (b.diff a).contains r) ∧
    (∀ (a : RegisterSnapshot) (r : Register), (a.diff a).contains r = false) ∧
    (∀ (a b c : RegisterSnapshot) (r : Register), (a.diff c).contains r = true →
      (a.diff b).contains r = true ∨ (b.diff c).contains r = true) ∧
    (∀ (a b : RegisterSnapshot) (r : Register), r ≠ .F →
      ((a.diff b).contains r = true ↔ a.number? r ≠ b.number? r)) ∧
    (∀ a b : RegisterSnapshot, (a.diff b).contains .F = false →
      (∃ e e', a.floatHex = .error e ∧ b.floatHex = .error e') ∨
        ∃ hex, a.floatHex = .ok hex ∧ b.floatHex = .ok hex) ∧
    ∀ ops : List RegisterCache.Operation,
      (RegisterCache.run ops).changed = RegisterCache.lastChange (RegisterCache.sinceClear ops) := by
  refine ⟨?symmetric, ?irreflexive, ?triangle, ?number, ?pattern, ?cache⟩
  case symmetric =>
    intro a b r
    rw [Bool.eq_iff_iff, RegisterSnapshot.contains_diff_iff, RegisterSnapshot.contains_diff_iff]
    exact ne_comm
  case irreflexive =>
    intro a r
    exact RegisterSnapshot.contains_diff_eq_false_iff.mpr rfl
  case triangle =>
    intro a b c r
    simp only [RegisterSnapshot.contains_diff_iff]
    intro hne
    -- what lies between agrees with at most one of two contents that differ
    by_cases hab : a.content r = b.content r
    · exact .inr (hab ▸ hne)
    · exact .inl hab
  case number =>
    intro a b r hr
    rw [RegisterSnapshot.contains_diff_iff, ne_eq, RegisterSnapshot.content_eq_iff hr]
  case pattern =>
    intro a b h
    exact RegisterSnapshot.floatHex_of_content_eq (RegisterSnapshot.contains_diff_eq_false_iff.mp h)
  case cache =>
    intro ops
    exact (RegisterCache.follows_run ops).changed_eq

/-- Two texts of one double and one that denotes none, compared and then cached. -/
theorem changes_of_texts :
    let one : RegisterSnapshot := { a := 1, f := "1.0" }
    let blanks : RegisterSnapshot := { a := 2, f := " 1 " }
    let word : RegisterSnapshot := { a := 2, f := "one" }
    ((one.diff word).contains .F = true ∧
      ((one.diff blanks).contains .F = true ∨ (blanks.diff word).contains .F = true)) ∧
    (Register.A ≠ .F ∧ ((one.diff blanks).contains .A = true ↔ one.number? .A ≠ blanks.number? .A)) ∧
    ((one.diff blanks).contains .F = false ∧
      ((∃ e e', one.floatHex = .error e ∧ blanks.floatHex = .error e') ∨
        ∃ hex, one.floatHex = .ok hex ∧ blanks.floatHex = .ok hex)) ∧
    (RegisterCache.run [.replace word, .clear, .replace one, .replace blanks]).changed =
      one.diff blanks := by
  intro one blanks word
  obtain ⟨-, -, hover, hnumber, hpattern, hcache⟩ := changes_cohere
  have hword : (one.diff word).contains .F = true := by decide +kernel
  have hblanks : (one.diff blanks).contains .F = false := by decide +kernel
  exact ⟨⟨hword, hover one blanks word .F hword⟩,
    ⟨by decide, hnumber one blanks .A (by decide)⟩,
    ⟨hblanks, hpattern one blanks hblanks⟩,
    hcache [.replace word, .clear, .replace one, .replace blanks]⟩

end SicDebugger
