import SicDebugger.Proofs.Routes
import Mathlib.Logic.Relation

/-!
# Normal forms as texts

The normal form of a text has its root or none, `..` once at most and in front, and behind that
names that say something. What comes to nothing on the way is lost in it, wherever it stands: a
point, a slash too many, or a name that is left again at once. So texts that differ in nothing else
have one normal form, and a normal form is its own.
-/

namespace SicDebugger

namespace Path

variable {s t n : String} {parts : List String}

/-- The normal form of a text, as a text. -/
def normalText (s : String) : String := (ofText s).normal.toText

/-- A name that says where to go down. -/
def Ordinary (n : String) : Prop := Legible n ∧ n ≠ ".."

/-- A text in normal form: the root or none, `..` or not, and ordinary names. -/
def IsNormalText (s : String) : Prop :=
  ∃ root dots names, (root = "" ∨ root = "/") ∧ (dots = [] ∨ dots = [".."]) ∧
    (∀ n ∈ names, Ordinary n) ∧ s = root ++ "/".intercalate (dots ++ names)

/-- Parts between slashes that come to nothing: an empty one, a point, or a name that is left again
at once. -/
inductive Idle : List String → Prop
  | empty : Idle [""]
  | point : Idle ["."]
  | leave {n : String} (h : Ordinary n) : Idle [n, ".."]

/-- The second text has idle parts that the first one has not, at any place where this does not give
the path a root or take it away. -/
def Inserted (s t : String) : Prop :=
  ∃ before parts after, Idle parts ∧ s = "/".intercalate (before ++ after) ∧
    t = "/".intercalate (before ++ parts ++ after) ∧
    (s.toList.head? = some '/' ↔ t.toList.head? = some '/')

/-! ## The shape of normal forms -/

lemma ofText_normalText (s : String) : ofText (normalText s) = (ofText s).normal :=
  ofText_toText (clean_normal (clean_ofText s))

lemma isNormalText_normalText (s : String) : IsNormalText (normalText s) := by
  refine ⟨if (ofText s).absolute then "/" else "",
    if (ofText s).route.up % 2 = 1 then [".."] else [], (ofText s).route.down, ?_, ?_, ?_, ?_⟩
  · split <;> simp
  · split <;> simp
  · intro n hn
    obtain ⟨hmem, hdots⟩ := mem_down hn
    exact ⟨clean_ofText s n hmem, hdots⟩
  · rw [normalText, toText, normal_names]
    rfl

/-- A text in normal form is its own normal form. -/
lemma normalText_of_isNormalText (h : IsNormalText s) : normalText s = s := by
  obtain ⟨root, dots, names, hroot, hdots, hnames, hs⟩ := h
  obtain ⟨absolute, rfl⟩ : ∃ absolute : Bool, root = if absolute then "/" else "" := by
    rcases hroot with rfl | rfl
    · exact ⟨false, rfl⟩
    · exact ⟨true, rfl⟩
  have hclean : Clean ⟨absolute, dots ++ names⟩ := by
    intro n hn
    rcases List.mem_append.mp hn with hn | hn
    · rcases hdots with rfl | rfl
      · cases hn
      · rw [List.mem_singleton.mp hn]
        exact ⟨by decide, by decide, by decide⟩
    · exact (hnames n hn).1
  -- the ordinary names are appended as they are, and `..` in front of them is its own normal form
  have hdown : ".." ∉ names := fun hmem => (hnames _ hmem).2 rfl
  have hfront : (normal ⟨absolute, dots⟩).names = dots := by
    rcases hdots with rfl | rfl <;> rfl
  have htext : s = toText ⟨absolute, dots ++ names⟩ := by rw [hs, toText]
  rw [normalText, htext, ofText_toText hclean, normal_append hdown, hfront]

lemma head?_eq_slash_iff (s : String) : s.toList.head? = some '/' ↔ (ofText s).absolute = true := by
  rw [ofText, beq_iff_eq]

/-! ## What is put in -/

/-- The names of a text are those on both sides of a slash. -/
lemma names_append_slash (s t : String) :
    (ofText (s ++ "/" ++ t)).names = (ofText s).names ++ (ofText t).names := by
  have hslash : (s ++ "/" ++ t).toList = s.toList ++ '/' :: t.toList := by
    rw [String.toList_append, String.toList_append, List.append_assoc]
    rfl
  rw [ofText, ofText, ofText, hslash, Text.split_eq_splitOn, Text.split_eq_splitOn,
    Text.split_eq_splitOn, List.splitOn_append_cons_self, List.map_append, List.filter_append]

/-- The names of a text are those of its parts, one after the other. -/
lemma names_intercalate (parts : List String) :
    (ofText ("/".intercalate parts)).names = parts.flatMap fun p => (ofText p).names := by
  induction parts with
  | nil => rfl
  | cons p rest ih =>
    cases rest with
    | nil => rw [String.intercalate_singleton, List.flatMap_singleton]
    | cons q rest =>
      rw [String.intercalate_cons_cons, names_append_slash, ih]
      simp only [List.flatMap_cons]

lemma names_of_legible (h : Legible n) : (ofText n).names = [n] := by
  -- the text is that of a relative path with this one name
  have hclean : Clean ⟨false, [n]⟩ := by
    intro m hm
    rwa [List.mem_singleton.mp hm]
  have hread := ofText_toText hclean
  rw [toText, String.intercalate_singleton, if_neg Bool.false_ne_true, String.empty_append] at hread
  rw [hread]

/-- Idle parts lead back to where they begin. -/
lemma foldl_idle (h : Idle parts) (behind : List String) :
    (parts.flatMap fun p => (ofText p).names).foldl advance behind = behind := by
  cases h with
  | empty => rfl
  | point => rfl
  | leave hn =>
    have hdots : Legible ".." := ⟨by decide, by decide, by decide⟩
    rw [List.flatMap_cons, List.flatMap_singleton, names_of_legible hn.1, names_of_legible hdots,
      List.singleton_append, List.foldl_cons, List.foldl_cons, List.foldl_nil,
      Route.advance_of_ne hn.2, Route.advance_dots (List.cons_ne_nil _ _), List.tail_cons]

/-- What is put in does not change the normal form. -/
lemma normalText_of_inserted (h : Inserted s t) : normalText s = normalText t := by
  obtain ⟨before, parts, after, hidle, rfl, rfl, hroot⟩ := h
  rw [head?_eq_slash_iff, head?_eq_slash_iff, Bool.coe_iff_coe] at hroot
  rw [normalText, normalText, normal, normal, hroot, names_intercalate, names_intercalate,
    List.flatMap_append, List.flatMap_append, List.flatMap_append, List.foldl_append,
    List.foldl_append, List.foldl_append, foldl_idle hidle]

/-- Every text has a normal form, with `..` in front alone, once at most, and a root exactly if the
text has one. It is its own normal form, as is any text of this kind. Texts have the same normal
form if one becomes the other when idle parts are put in and taken out. -/
theorem normal_form_reached :
    (∀ s, IsNormalText (normalText s) ∧
      ((normalText s).toList.head? = some '/' ↔ s.toList.head? = some '/') ∧
      normalText (normalText s) = normalText s ∧
      (normalText s = s ↔ IsNormalText s)) ∧
    ∀ s t, Relation.EqvGen Inserted s t → normalText s = normalText t := by
  refine ⟨?_, ?_⟩
  · intro s
    refine ⟨isNormalText_normalText s, ?_, normalText_of_isNormalText (isNormalText_normalText s),
      ?_, normalText_of_isNormalText⟩
    · rw [head?_eq_slash_iff, head?_eq_slash_iff, ofText_normalText]
      rfl
    · intro hself
      rw [← hself]
      exact isNormalText_normalText s
  · intro s t h
    induction h with
    | rel s t hinserted => exact normalText_of_inserted hinserted
    | refl s => rfl
    | symm s t _ ih => exact ih.symm
    | trans s t u _ _ ihs iht => exact ihs.trans iht

/-- A file beside the directory, by a way that has all that comes to nothing. -/
theorem normal_form_of_detour :
    IsNormalText "../src/a.asm" ∧ normalText "../src/a.asm" = "../src/a.asm" ∧
    Relation.EqvGen Inserted "../src/a.asm" ".././src/lib/..//a.asm" ∧
    normalText ".././src/lib/..//a.asm" = "../src/a.asm" := by
  obtain ⟨hform, hsame⟩ := normal_form_reached
  have hself : normalText "../src/a.asm" = "../src/a.asm" := by decide +kernel
  have hpoint : Inserted "../src/a.asm" ".././src/a.asm" :=
    ⟨[".."], ["."], ["src", "a.asm"], .point, by decide +kernel⟩
  have hslash : Inserted ".././src/a.asm" ".././src//a.asm" :=
    ⟨["..", ".", "src"], [""], ["a.asm"], .empty, by decide +kernel⟩
  have hname : Ordinary "lib" := ⟨⟨by decide, by decide, by decide⟩, by decide⟩
  have hleave : Inserted ".././src//a.asm" ".././src/lib/..//a.asm" :=
    ⟨["..", ".", "src"], ["lib", ".."], ["", "a.asm"], .leave hname, by decide +kernel⟩
  have hway : Relation.EqvGen Inserted "../src/a.asm" ".././src/lib/..//a.asm" :=
    .trans _ _ _ (.trans _ _ _ (.rel _ _ hpoint) (.rel _ _ hslash)) (.rel _ _ hleave)
  exact ⟨(hform _).2.2.2.mp hself, hself, hway, (hsame _ _ hway).symm.trans hself⟩

end Path
end SicDebugger
