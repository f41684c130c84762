import SicDebugger.Text.Blank
import Mathlib.Data.List.TakeWhile
import Mathlib.Tactic.Lemma

/-!
# What trimming takes away

Trimming takes blanks away and nothing else. So a text is what is left of it, between blanks, and
what has no blanks itself is left of every text that has it between blanks.
-/

namespace SicDebugger.Text

variable {s core front back : List Char}

lemma trimStart_eq_nil_iff : trimStart s = [] ↔ ∀ c ∈ s, isBlank c = true := by
  rw [trimStart, List.dropWhile_eq_nil_iff]

lemma trimEnd_eq_nil_iff : trimEnd s = [] ↔ ∀ c ∈ s, isBlank c = true := by
  rw [trimEnd, List.reverse_eq_nil_iff, List.dropWhile_eq_nil_iff]
  simp only [List.mem_reverse]

/-- Nothing is left of a text if all of it is blank. -/
lemma trimChars_eq_nil_iff : trimChars s = [] ↔ ∀ c ∈ s, isBlank c = true := by
  rw [trimChars, trimEnd_eq_nil_iff]
  constructor
  · intro htrimmed
    rw [← trimStart_eq_nil_iff]
    cases hstart : trimStart s with
    | nil => rfl
    | cons c r =>
      have hblank : isBlank c = true := htrimmed c (hstart ▸ List.mem_cons_self)
      rw [trimStart_head s c r hstart] at hblank
      cases hblank
  · intro hblank c hc
    exact hblank c ((List.dropWhile_sublist _).mem hc)

/-! ## Texts between blanks -/

/-- A text has another one in it, with nothing but blanks around. -/
def Surrounds (s core : List Char) : Prop :=
  ∃ front back, s = front ++ core ++ back ∧ (∀ c ∈ front, isBlank c = true) ∧
    ∀ c ∈ back, isBlank c = true

/-- A text surrounds what is left when it is trimmed. -/
lemma surrounds_trimChars (s : List Char) : Surrounds s (trimChars s) := by
  refine ⟨s.takeWhile isBlank, ((trimStart s).reverse.takeWhile isBlank).reverse, ?_, ?_, ?_⟩
  · have hback : trimStart s =
        trimEnd (trimStart s) ++ ((trimStart s).reverse.takeWhile isBlank).reverse := by
      rw [trimEnd, ← List.reverse_append, List.takeWhile_append_dropWhile, List.reverse_reverse]
    rw [trimChars, List.append_assoc, ← hback, trimStart, List.takeWhile_append_dropWhile]
  · intro c hc
    exact List.mem_takeWhile_imp hc
  · intro c hc
    exact List.mem_takeWhile_imp (List.mem_reverse.mp hc)

lemma dropWhile_isBlank (h : ∀ c ∈ s, isBlank c = false) : s.dropWhile isBlank = s :=
  List.dropWhile_eq_self_iff.mpr fun hs => by simp [h _ (List.getElem_mem hs)]

/-- What stands between blanks without having one is left. -/
lemma trimChars_of_surrounds (hcore : ∀ c ∈ core, isBlank c = false) (h : Surrounds s core) :
    trimChars s = core := by
  obtain ⟨front, back, rfl, hfront, hback⟩ := h
  -- the first and the last character of a core stop the trimming; without a core all is blank
  cases core with
  | nil =>
    rw [List.append_nil, trimChars_eq_nil_iff]
    intro c hc
    exact (List.mem_append.mp hc).elim (hfront c) (hback c)
  | cons c r =>
    have hstart : trimStart (front ++ c :: r ++ back) = c :: r ++ back := by
      rw [trimStart, List.append_assoc, List.dropWhile_append_of_pos hfront, List.cons_append,
        List.dropWhile_cons_of_neg (by simp [hcore c List.mem_cons_self])]
    have hend : ((c :: r).reverse).dropWhile isBlank = (c :: r).reverse :=
      dropWhile_isBlank fun d hd => hcore d (List.mem_reverse.mp hd)
    rw [trimChars, hstart, trimEnd, List.reverse_append,
      List.dropWhile_append_of_pos fun d hd => hback d (List.mem_reverse.mp hd), hend,
      List.reverse_reverse]

lemma trimChars_eq_self (h : ∀ c ∈ s, isBlank c = false) : trimChars s = s :=
  trimChars_of_surrounds h ⟨[], [], by simp⟩

/-- A blank behind a text is trimmed. -/
lemma trimChars_append_blank (h : ∀ c ∈ s, isBlank c = false) : trimChars (s ++ [' ']) = s :=
  trimChars_of_surrounds h ⟨[], [' '], rfl, nofun, List.forall_mem_singleton.mpr rfl⟩

end SicDebugger.Text
