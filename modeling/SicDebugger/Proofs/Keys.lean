import SicDebugger.Proofs.Routes

/-!
# What keys are written from

The key of a text is written from its normal form, without the root where it lies below an absolute
one. Read from the directory of the root, what is written denotes what the normal form denotes. The
key of a text without backslashes tells what it is written from.
-/

namespace SicDebugger
namespace Path

variable {root p : Path} {f g : String}

/-! ## The path of a key -/

/-- The path that is written in a key, for a path in normal form. -/
def known (root p : Path) : Path := if p.absolute then (below? root p).getD p else p

/-- The text with a slash for each backslash. -/
def slashed (s : String) : String :=
  String.ofList (s.toList.map fun c => if c = '\\' then '/' else c)

lemma key_eq (root : Path) (file : String) :
    key (some root) file = slashed (known root (ofText file).normal).toText := rfl

lemma key_congr (h : known root (ofText f).normal = known root (ofText g).normal) :
    key (some root) f = key (some root) g := by
  rw [key_eq, key_eq, h]

/-- A relative root is taken off no path. -/
lemma known_of_relative (h : root.absolute = false) (p : Path) : known root p = p := by
  obtain ⟨absolute, names⟩ := p
  cases absolute with
  | false => rfl
  | true =>
    rw [known, if_pos rfl, below?]
    split
    · rfl
    · rw [if_neg (by simp [h]), Option.getD_none]

section

variable (hroot : root.absolute = true)
include hroot

/-- What lies below the root is known without it. -/
lemma known_append (rest : List String) :
    known root ⟨true, root.names ++ rest⟩ = ⟨false, rest⟩ := by
  have hprefix : root.names.isPrefixOf (root.names ++ rest) = true :=
    List.isPrefixOf_iff_prefix.mpr (List.prefix_append _ _)
  rw [known, if_pos rfl, below?, if_neg (by simp [hroot]), if_pos ⟨hroot, hprefix⟩,
    List.drop_left]
  rfl

/-- What does not lie below the root is known as it is. -/
lemma known_of_outside (h : ¬ root.names <+: p.names) : known root p = p := by
  have hbelow : below? root p = none := by
    rw [below?, if_neg (by simp [hroot]), if_neg]
    rintro ⟨-, hprefix⟩
    exact h (List.isPrefixOf_iff_prefix.mp hprefix)
  rw [known, hbelow, Option.getD_none, ite_self]

end

lemma known_cases (root p : Path) : known root p = p ∨
    ∃ rest, p = ⟨true, root.names ++ rest⟩ ∧ known root p = ⟨false, rest⟩ := by
  obtain ⟨absolute, names⟩ := p
  cases absolute with
  | false => exact .inl rfl
  | true =>
    cases hroot : root.absolute with
    | false => exact .inl (known_of_relative hroot _)
    | true =>
      by_cases hprefix : root.names <+: names
      · obtain ⟨rest, rfl⟩ := hprefix
        exact .inr ⟨rest, rfl, known_append hroot rest⟩
      · exact .inl (known_of_outside hroot hprefix)

lemma mem_of_mem_known {n : String} (hn : n ∈ (known root p).names) : n ∈ p.names := by
  rcases known_cases root p with heq | ⟨rest, rfl, heq⟩
  · rwa [heq] at hn
  · rw [heq] at hn
    exact List.mem_append_right _ hn

/-- A name of a path that is not one of the root is known. -/
lemma mem_known {n : String} (hn : n ∈ p.names) (hout : n ∉ root.names) :
    n ∈ (known root p).names := by
  rcases known_cases root p with heq | ⟨rest, rfl, heq⟩
  · rwa [heq]
  · rw [heq]
    exact (List.mem_append.mp hn).resolve_left hout

lemma clean_known (h : p.Clean) : (known root p).Clean :=
  fun n hn => h n (mem_of_mem_known hn)

section

variable (hroot : root.absolute = true)
include hroot

/-- From the directory of the root, what is known denotes what the path denotes. -/
lemma resolve_known (p : Path) :
    (known root p).resolve (root.resolve []) = p.resolve (root.resolve []) := by
  rcases known_cases root p with heq | ⟨rest, rfl, heq⟩
  · rw [heq]
  · have hstart : resolve (root.resolve []) ⟨true, root.names⟩ = root.resolve [] := by
      rw [resolve_of_absolute hroot]
      rfl
    rw [heq, resolve_append, hstart]

/-- A path without `..` is known as the file is that it denotes, if the root has none either. -/
lemma known_of_no_dots (hdots : ".." ∉ root.names) (h : ".." ∉ p.names) :
    known root p = known root ⟨true, p.resolve (root.resolve [])⟩ := by
  obtain ⟨absolute, names⟩ := p
  cases absolute with
  | true => rw [resolve_absolute h]
  | false =>
    rw [resolve, if_neg Bool.false_ne_true, foldl_enter h, resolve, if_pos hroot,
      foldl_enter hdots, List.nil_append, known_append hroot]
    rfl

end

/-! ## Texts without backslashes -/

/-- A text without a backslash. -/
def Plain (s : String) : Prop := '\\' ∉ s.toList

instance (s : String) : Decidable (Plain s) := inferInstanceAs (Decidable ('\\' ∉ s.toList))

lemma plain_slashed (s : String) : Plain (slashed s) := by
  rw [Plain, slashed, String.toList_ofList]
  intro hmem
  obtain ⟨c, -, hc⟩ := List.mem_map.mp hmem
  split at hc
  · exact absurd hc (by decide)
  · next hne => exact hne hc

lemma slashed_of_plain (h : Plain f) : slashed f = f := by
  have hsame : ∀ c ∈ f.toList, (if c = '\\' then '/' else c) = c := by
    intro c hc
    rw [if_neg]
    rintro rfl
    exact h hc
  rw [slashed, List.map_congr_left hsame, List.map_id', String.ofList_toList]

lemma plain_toText (h : ∀ n ∈ p.names, Plain n) : Plain p.toText := by
  intro hc
  rcases mem_toText hc with hslash | ⟨n, hn, hmem⟩
  · exact absurd hslash (by decide)
  · exact h n hn hmem

lemma plain_of_mem_ofText (h : Plain f) {n : String} (hn : n ∈ (ofText f).names) : Plain n :=
  fun hc => h (mem_text_of_mem_name hn hc)

lemma plain_of_mem_normal (h : Plain f) {n : String} (hn : n ∈ (ofText f).normal.names) :
    Plain n := by
  rcases mem_normal hn with rfl | hmem
  · rw [Plain]
    decide
  · exact plain_of_mem_ofText h hmem

/-- The key of a text without backslashes is what is known of it. -/
lemma key_of_plain (h : Plain f) :
    key (some root) f = (known root (ofText f).normal).toText := by
  rw [key_eq]
  exact slashed_of_plain (plain_toText fun n hn => plain_of_mem_normal h (mem_of_mem_known hn))

/-- Keys of texts without backslashes are equal if the same is known of them. -/
lemma key_eq_iff (hf : Plain f) (hg : Plain g) : key (some root) f = key (some root) g ↔
    known root (ofText f).normal = known root (ofText g).normal := by
  rw [key_of_plain hf, key_of_plain hg]
  exact toText_inj (clean_known (clean_normal (clean_ofText f)))
    (clean_known (clean_normal (clean_ofText g)))

end Path
end SicDebugger
