import SicDebugger.Diagnostics.Table
import Mathlib.Data.List.Induction
import Mathlib.Tactic.Lemma

/-!
# Diagnostics by origin

A bucket mixes what checks and loads have found in a file. Read by origin the table is two tables:
what is replaced or dropped of one origin leaves the other as it was, and once the one is dropped
the table is determined by the other.
-/

namespace SicDebugger

/-- The origin that is not this one. -/
def DiagnosticOrigin.other : DiagnosticOrigin → DiagnosticOrigin
  | check => load
  | load => check

namespace DiagnosticTable

variable {t t' : DiagnosticTable} {o o' : DiagnosticOrigin} {file key : String}
  {ds : List Diagnostic}

/-- What an origin has found under a key. -/
def found (t : DiagnosticTable) (origin : DiagnosticOrigin) (key : String) : List Diagnostic :=
  (t.buckets.getD key []).filter (·.origin == origin)

lemma found_eq (t : DiagnosticTable) (o : DiagnosticOrigin) (key : String) :
    t.found o key = (t.buckets[key]?.getD []).filter (·.origin == o) := by
  rw [found, Std.ExtTreeMap.getD_eq_getD_getElem?]

lemma ext_getElem? (hroot : t.root = t'.root)
    (hbuckets : ∀ key : String, t.buckets[key]? = t'.buckets[key]?) : t = t' := by
  obtain ⟨root, buckets⟩ := t
  obtain ⟨root', buckets'⟩ := t'
  cases hroot
  have heq : buckets = buckets' := Std.ExtTreeMap.ext_getElem? fun {key} => hbuckets key
  rw [heq]

lemma others_eq (o : DiagnosticOrigin) (ds : List Diagnostic) :
    others o ds = ds.filter (·.origin == o.other) := by
  apply List.filter_congr
  intro d _
  cases d.origin <;> cases o <;> rfl

lemma getD_bucket? (ds : List Diagnostic) : (bucket? ds).getD [] = ds := by
  unfold bucket?
  split
  · next h => rw [List.isEmpty_iff.mp h, Option.getD_none]
  · rw [Option.getD_some]

/-- What is kept of a bucket when an origin is dropped, read by origin. -/
lemma filter_others (o o' : DiagnosticOrigin) (ds : List Diagnostic) :
    (others o ds).filter (·.origin == o') =
      if o' = o then [] else ds.filter (·.origin == o') := by
  rw [others, List.filter_filter]
  split
  · next heq =>
    rw [List.filter_eq_nil_iff]
    intro d _
    simp [heq]
  · next hne =>
    apply List.filter_congr
    intro d _
    cases hd : d.origin == o' with
    | false => rfl
    | true => simpa [beq_iff_eq.mp hd] using hne

/-! ## Dropping an origin -/

lemma getElem?_clearOrigin (t : DiagnosticTable) (o : DiagnosticOrigin) (key : String) :
    (t.clearOrigin o).buckets[key]? = bucket? (t.found o.other key) := by
  rw [clearOrigin, Std.ExtTreeMap.getElem?_filterMap', found_eq]
  cases t.buckets[key]? with
  | none => rfl
  | some ds => rw [Option.bind_some, others_eq, Option.getD_some]

theorem found_clearOrigin (t : DiagnosticTable) (o o' : DiagnosticOrigin) (key : String) :
    (t.clearOrigin o).found o' key = if o' = o then [] else t.found o' key := by
  rw [found_eq, getElem?_clearOrigin, getD_bucket?, found, ← others_eq, filter_others]
  rfl

/-- Tables that differ in one origin alone are equal when it is dropped. -/
theorem clearOrigin_congr (hroot : t.root = t'.root)
    (hfound : ∀ key, t.found o.other key = t'.found o.other key) :
    t.clearOrigin o = t'.clearOrigin o := by
  refine ext_getElem? (t := t.clearOrigin o) hroot ?_
  intro key
  rw [getElem?_clearOrigin, getElem?_clearOrigin, hfound]

/-- An origin that has been dropped is not dropped again. -/
lemma clearOrigin_again (t : DiagnosticTable) (o : DiagnosticOrigin) :
    (t.clearOrigin o).clearOrigin o = t.clearOrigin o := by
  refine clearOrigin_congr (t := t.clearOrigin o) rfl ?_
  intro key
  rw [found_clearOrigin, if_neg (by cases o <;> decide)]

/-! ## Replacing an origin -/

/-- What a file has of an origin is replaced, and the rest stays. -/
theorem found_replaceOrigin (t : DiagnosticTable) (file : String) (o o' : DiagnosticOrigin)
    (ds : List Diagnostic) (key : String) :
    (t.replaceOrigin file o ds).found o' key =
      if t.key file = key ∧ o' = o then ds.map fun d => { d with origin := o }
      else t.found o' key := by
  rw [found_eq, replaceOrigin, Std.ExtTreeMap.getElem?_alter]
  simp only [Std.compare_eq_iff_eq]
  by_cases hkey : t.key file = key
  · subst hkey
    have hmap : (ds.map fun d => { d with origin := o }).filter (·.origin == o') =
        if o' = o then ds.map fun d => { d with origin := o } else [] := by
      split
      · next heq =>
        rw [List.filter_eq_self]
        simp [heq]
      · next hne =>
        rw [List.filter_eq_nil_iff]
        simp [Ne.symm hne]
    rw [if_pos rfl, getD_bucket?, List.filter_append, filter_others, hmap, found_eq]
    by_cases ho : o' = o <;> simp [ho]
  · rw [if_neg hkey, if_neg fun h => hkey h.1, found_eq]

/-- The buckets under other keys than that of the file stay. -/
lemma getElem?_replaceOrigin (h : t.key file ≠ key) :
    (t.replaceOrigin file o ds).buckets[key]? = t.buckets[key]? := by
  rw [replaceOrigin, Std.ExtTreeMap.getElem?_alter]
  simp only [Std.compare_eq_iff_eq]
  rw [if_neg h]

/-! ## Replacing an origin file by file -/

section

variable {α : Type} {name : α → String} {findings : α → List Diagnostic} {files : List α}

/-- Takes what an activity finds in files, one after the other. -/
def replaceEach (t : DiagnosticTable) (o : DiagnosticOrigin) (name : α → String)
    (findings : α → List Diagnostic) (files : List α) : DiagnosticTable :=
  files.foldl (fun t f => t.replaceOrigin (name f) o (findings f)) t

/-- The last one of files under a key. -/
def lastUnder? (t : DiagnosticTable) (name : α → String) (files : List α) (key : String) :
    Option α :=
  files.reverse.find? fun f => t.key (name f) == key

lemma lastUnder?_concat (t : DiagnosticTable) (files : List α) (f : α) (key : String) :
    t.lastUnder? name (files ++ [f]) key =
      if t.key (name f) = key then some f else t.lastUnder? name files key := by
  rw [lastUnder?, List.reverse_append, List.reverse_singleton, List.singleton_append,
    List.find?_cons]
  by_cases hf : t.key (name f) = key
  · rw [if_pos hf, beq_iff_eq.mpr hf]
  · rw [if_neg hf, beq_false_of_ne hf]
    rfl

lemma replaceEach_concat (t : DiagnosticTable) (files : List α) (f : α) :
    t.replaceEach o name findings (files ++ [f]) =
      (t.replaceEach o name findings files).replaceOrigin (name f) o (findings f) := by
  rw [replaceEach, List.foldl_append, List.foldl_cons, List.foldl_nil, replaceEach]

lemma root_replaceEach (t : DiagnosticTable) (files : List α) :
    (t.replaceEach o name findings files).root = t.root := by
  induction files using List.reverseRecOn with
  | nil => rfl
  | append_singleton files f ih =>
    rw [replaceEach_concat]
    exact ih

lemma key_replaceEach (t : DiagnosticTable) (files : List α) :
    (t.replaceEach o name findings files).key = t.key := by
  funext file
  rw [key, root_replaceEach, key]

lemma found_replaceEach_of_ne (ho : o' ≠ o) (t : DiagnosticTable) (files : List α)
    (key : String) : (t.replaceEach o name findings files).found o' key = t.found o' key := by
  induction files using List.reverseRecOn with
  | nil => rfl
  | append_singleton files f ih =>
    rw [replaceEach_concat, found_replaceOrigin, if_neg fun h => ho h.2, ih]

/-- Of the files under one key the last one counts. -/
theorem found_replaceEach (t : DiagnosticTable) (files : List α) (key : String) :
    (t.replaceEach o name findings files).found o key =
      (t.lastUnder? name files key).elim (t.found o key) fun f =>
        (findings f).map fun d => { d with origin := o } := by
  induction files using List.reverseRecOn with
  | nil => rfl
  | append_singleton files f ih =>
    rw [replaceEach_concat, found_replaceOrigin, key_replaceEach, ih, lastUnder?_concat]
    by_cases hf : t.key (name f) = key
    · rw [if_pos ⟨hf, rfl⟩, if_pos hf, Option.elim_some]
    · rw [if_neg fun h => hf h.1, if_neg hf]

lemma getElem?_replaceEach (h : ∀ f ∈ files, t.key (name f) ≠ key) :
    (t.replaceEach o name findings files).buckets[key]? = t.buckets[key]? := by
  induction files using List.reverseRecOn with
  | nil => rfl
  | append_singleton files f ih =>
    have hlast : (t.replaceEach o name findings files).key (name f) ≠ key := by
      rw [key_replaceEach]
      exact h f (List.mem_append_right _ List.mem_cons_self)
    rw [replaceEach_concat, getElem?_replaceOrigin hlast]
    exact ih fun f' hf' => h f' (List.mem_append_left _ hf')

/-- Some file is the last one under a key if any is under it. -/
lemma lastUnder?_isSome_iff : (t.lastUnder? name files key).isSome = true ↔
    ∃ f ∈ files, t.key (name f) = key := by
  simp [lastUnder?]

end

/-! ## Whole buckets -/

/-- A bucket that is put is read by origin like any other. -/
theorem found_put (t : DiagnosticTable) (file : String) (ds : List Diagnostic)
    (o : DiagnosticOrigin) (key : String) :
    (t.put file ds).found o key =
      if t.key file = key then ds.filter (·.origin == o) else t.found o key := by
  rw [found_eq, put, Std.ExtTreeMap.getElem?_insert, found_eq]
  simp only [Std.compare_eq_iff_eq]
  split <;> rfl

theorem found_clear (t : DiagnosticTable) (o : DiagnosticOrigin) (key : String) :
    t.clear.found o key = [] := by
  rw [found_eq, clear, Std.ExtTreeMap.getElem?_empty]
  rfl

theorem found_clearFile (t : DiagnosticTable) (file : String) (o : DiagnosticOrigin)
    (key : String) :
    (t.clearFile file).found o key = if t.key file = key then [] else t.found o key := by
  rw [found_eq, clearFile, Std.ExtTreeMap.getElem?_erase, found_eq]
  simp only [Std.compare_eq_iff_eq]
  split <;> rfl

/-- What a file has of an origin is dropped, and the rest stays. -/
theorem found_clearFileOrigin (t : DiagnosticTable) (file : String) (o o' : DiagnosticOrigin)
    (key : String) :
    (t.clearFileOrigin file o).found o' key =
      if t.key file = key ∧ o' = o then [] else t.found o' key := by
  rw [found_eq, clearFileOrigin, Std.ExtTreeMap.getElem?_alter]
  simp only [Std.compare_eq_iff_eq]
  by_cases hkey : t.key file = key
  · subst hkey
    rw [if_pos rfl, found_eq]
    cases t.buckets[t.key file]? with
    | none => split <;> rfl
    | some ds =>
      rw [Option.bind_some, getD_bucket?, filter_others, Option.getD_some]
      simp only [true_and]
  · rw [if_neg hkey, if_neg fun h => hkey h.1, found_eq]

end DiagnosticTable
end SicDebugger
