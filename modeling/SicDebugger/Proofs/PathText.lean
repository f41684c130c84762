import SicDebugger.Path
import Mathlib.Data.List.Basic

/-!
# Paths and their texts

Each name that is read from a text stands between slashes there: it has a character, none of them a
slash, and is not the single point. A path whose names are of this kind is the one that is read from
its own text. So such paths are equal when their texts are.
-/

namespace SicDebugger

/-! ## Parts between separators -/

namespace Text

variable {sep c : Char} {s p : List Char}

lemma split_eq_splitOn (sep : Char) (s : List Char) : split sep s = s.splitOn sep := by
  induction s with
  | nil => exact (List.splitOn_nil sep).symm
  | cons c r ih =>
    rw [split, List.splitOn_cons_eq_if_modifyHead, ih]
    by_cases hc : c = sep
    · rw [if_pos hc, if_pos (beq_iff_eq.mpr hc)]
    · rw [if_neg hc, if_neg (by rwa [beq_iff_eq])]
      obtain ⟨q, rest, hsplit⟩ := List.exists_cons_of_ne_nil (List.splitOn_ne_nil sep r)
      rw [hsplit, List.modifyHead_cons]

/-- A part has characters of the text, and the separator is none of them. -/
lemma mem_of_mem_split (hp : p ∈ split sep s) (hc : c ∈ p) : c ∈ s ∧ c ≠ sep := by
  induction s generalizing p with
  | nil =>
    obtain rfl : p = [] := List.mem_singleton.mp hp
    cases hc
  | cons a r ih =>
    rw [split] at hp
    split at hp
    · rcases List.mem_cons.mp hp with rfl | hp
      · cases hc
      · obtain ⟨hmem, hne⟩ := ih hp hc
        exact ⟨List.mem_cons_of_mem a hmem, hne⟩
    · next ha =>
      obtain ⟨q, rest, hsplit⟩ := List.exists_cons_of_ne_nil (split_ne_nil sep r)
      rw [hsplit] at hp
      rcases List.mem_cons.mp hp with rfl | hp
      · rcases List.mem_cons.mp hc with rfl | hc
        · exact ⟨List.mem_cons_self, ha⟩
        · obtain ⟨hmem, hne⟩ := ih (hsplit ▸ List.mem_cons_self) hc
          exact ⟨List.mem_cons_of_mem a hmem, hne⟩
      · obtain ⟨hmem, hne⟩ := ih (hsplit ▸ List.mem_cons_of_mem q hp) hc
        exact ⟨List.mem_cons_of_mem a hmem, hne⟩

/-- Parts that are joined give their characters and separators. -/
lemma mem_intercalate {parts : List (List Char)} (hc : c ∈ [sep].intercalate parts) :
    c = sep ∨ ∃ p ∈ parts, c ∈ p := by
  induction parts with
  | nil => cases hc
  | cons p parts ih =>
    cases parts with
    | nil =>
      rw [List.intercalate_singleton] at hc
      exact .inr ⟨p, List.mem_cons_self, hc⟩
    | cons q rest =>
      rw [List.intercalate_cons_cons, List.append_assoc, List.mem_append, List.mem_append] at hc
      rcases hc with hc | hc | hc
      · exact .inr ⟨p, List.mem_cons_self, hc⟩
      · exact .inl (List.mem_singleton.mp hc)
      · exact (ih hc).imp_right fun ⟨q, hq, hmem⟩ => ⟨q, List.mem_cons_of_mem p hq, hmem⟩

end Text

/-! ## Names that can be read -/

namespace Path

variable {p q : Path} {s n : String} {c : Char}

/-- A name that can stand between slashes and says something there. -/
structure Legible (n : String) : Prop where
  ne_empty : n ≠ ""
  ne_point : n ≠ "."
  slash_not_mem : '/' ∉ n.toList

/-- All names of a path can be read. -/
def Clean (p : Path) : Prop := ∀ n ∈ p.names, Legible n

lemma mem_ofText (hn : n ∈ (ofText s).names) :
    n.toList ∈ Text.split '/' s.toList ∧ n ≠ "" ∧ n ≠ "." := by
  obtain ⟨hmem, hsays⟩ := List.mem_filter.mp hn
  obtain ⟨part, hpart, rfl⟩ := List.mem_map.mp hmem
  rw [String.toList_ofList]
  exact ⟨hpart, of_decide_eq_true hsays⟩

lemma clean_ofText (s : String) : (ofText s).Clean := by
  intro n hn
  obtain ⟨hpart, hempty, hpoint⟩ := mem_ofText hn
  exact ⟨hempty, hpoint, fun hslash => (Text.mem_of_mem_split hpart hslash).2 rfl⟩

/-- The characters of a name stand in the text from which it is read. -/
lemma mem_text_of_mem_name (hn : n ∈ (ofText s).names) (hc : c ∈ n.toList) : c ∈ s.toList :=
  (Text.mem_of_mem_split (mem_ofText hn).1 hc).1

/-! ## Writing and reading -/

lemma toList_toText (p : Path) : p.toText.toList =
    (if p.absolute then ['/'] else []) ++ ['/'].intercalate (p.names.map String.toList) := by
  rw [toText, String.toList_append, String.toList_intercalate]
  cases p.absolute <;> rfl

/-- Besides slashes a written path has the characters of its names. -/
lemma mem_toText (hc : c ∈ p.toText.toList) : c = '/' ∨ ∃ n ∈ p.names, c ∈ n.toList := by
  rw [toList_toText, List.mem_append] at hc
  rcases hc with hc | hc
  · split at hc
    · exact .inl (List.mem_singleton.mp hc)
    · cases hc
  · refine (Text.mem_intercalate hc).imp_right ?_
    rintro ⟨part, hpart, hmem⟩
    obtain ⟨n, hn, rfl⟩ := List.mem_map.mp hpart
    exact ⟨n, hn, hmem⟩

/-- The names of a clean path are found again between the slashes of its text. -/
lemma names_of_intercalate (h : p.Clean) :
    ((Text.split '/' (['/'].intercalate (p.names.map String.toList))).map String.ofList).filter
      (fun n => n ≠ "" ∧ n ≠ ".") = p.names := by
  by_cases hnames : p.names = []
  · -- the empty text has one part, and that says nothing
    rw [hnames]
    decide
  · have hparts : Text.split '/' (['/'].intercalate (p.names.map String.toList)) =
        p.names.map String.toList := by
      rw [Text.split_eq_splitOn]
      apply List.splitOn_intercalate
      · intro part hpart
        obtain ⟨n, hn, rfl⟩ := List.mem_map.mp hpart
        exact (h n hn).slash_not_mem
      · rwa [ne_eq, List.map_eq_nil_iff]
    have hwritten : (p.names.map String.toList).map String.ofList = p.names := by
      rw [List.map_map]
      exact List.map_id'' (fun n => String.ofList_toList) p.names
    rw [hparts, hwritten, List.filter_eq_self]
    intro n hn
    exact decide_eq_true ⟨(h n hn).ne_empty, (h n hn).ne_point⟩

/-- What is written of the names does not begin with a slash. -/
lemma head?_intercalate_ne_slash (h : p.Clean) :
    (['/'].intercalate (p.names.map String.toList)).head? ≠ some '/' := by
  cases hnames : p.names with
  | nil => decide
  | cons n rest =>
    have hn : Legible n := h n (hnames ▸ List.mem_cons_self)
    obtain ⟨c, cs, hcs⟩ := List.exists_cons_of_ne_nil fun hnil : n.toList = [] =>
      hn.ne_empty (String.toList_eq_nil_iff.mp hnil)
    have hhead : (['/'].intercalate ((n :: rest).map String.toList)).head? = some c := by
      rw [List.map_cons, hcs]
      cases rest with
      | nil => rfl
      | cons m rest => rfl
    rw [hhead]
    intro hslash
    cases hslash
    exact hn.slash_not_mem (hcs ▸ List.mem_cons_self)

/-- A clean path is read from the text that is written of it. -/
theorem ofText_toText (h : p.Clean) : ofText p.toText = p := by
  obtain ⟨absolute, names⟩ := p
  have hnames := names_of_intercalate h
  cases absolute with
  | true =>
    rw [ofText, toList_toText, if_pos rfl, List.singleton_append, Text.split, if_pos rfl,
      List.map_cons, List.filter_cons, if_neg (by decide), hnames]
    rfl
  | false =>
    have hrelative := head?_intercalate_ne_slash h
    rw [ofText, toList_toText, if_neg Bool.false_ne_true, List.nil_append, hnames,
      beq_eq_false_iff_ne.mpr hrelative]

/-- Clean paths that are written alike are equal. -/
lemma toText_inj (hp : p.Clean) (hq : q.Clean) : p.toText = q.toText ↔ p = q := by
  refine ⟨?_, congrArg toText⟩
  intro h
  rw [← ofText_toText hp, h, ofText_toText hq]

end Path
end SicDebugger
