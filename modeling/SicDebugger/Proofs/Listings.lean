import SicDebugger.Listing.Index
import Mathlib.Logic.Basic
import Mathlib.Tactic.ByContra
import Mathlib.Tactic.Lemma

/-!
# Breakpoints and listings

Breakpoints are a map from files to sets of rows, none of which is empty, so two of them with the
same rows are equal. They outlive the listings: only new listings drop breakpoints, and only a
toggle turns one over. Whatever is done to an index, its active listing exists while there is one,
and no breakpoint of a listed file is behind the last row.
-/

namespace SicDebugger

namespace Breakpoints

variable {b b' : Breakpoints} {file file' : String} {row row' : UInt64}

/-- No file is kept without rows. -/
def NoneEmpty (b : Breakpoints) : Prop :=
  ∀ (file : String) (rows : Std.ExtTreeSet UInt64), b[file]? = some rows → rows ≠ ∅

lemma has_iff : b.has file row = true ↔
    ∃ rows, b[file]? = some rows ∧ rows.contains row = true := by
  rw [has, rows, Std.ExtTreeMap.getD_eq_getD_getElem?]
  cases b[file]? <;> simp

/-- A file that is kept has a row. -/
lemma NoneEmpty.exists_row (h : b.NoneEmpty) {rows : Std.ExtTreeSet UInt64}
    (hrows : b[file]? = some rows) : ∃ row, rows.contains row = true := by
  by_contra hnone
  apply h file rows hrows
  apply Std.ExtTreeSet.ext_contains
  intro row
  rw [Std.ExtTreeSet.contains_empty]
  exact Bool.eq_false_iff.mpr fun hrow => hnone ⟨row, hrow⟩

lemma NoneEmpty.getElem?_eq_none (h : b.NoneEmpty) (hnone : ∀ row, b.has file row = false) :
    b[file]? = none := by
  cases hrows : b[file]? with
  | none => rfl
  | some rows =>
    obtain ⟨row, hrow⟩ := h.exists_row hrows
    have hhas : b.has file row = true := has_iff.mpr ⟨rows, hrows, hrow⟩
    rw [hnone] at hhas
    cases hhas

/-- Breakpoints are equal if they have the same rows. -/
theorem NoneEmpty.ext (h : b.NoneEmpty) (h' : b'.NoneEmpty)
    (hsame : ∀ file row, b.has file row = b'.has file row) : b = b' := by
  apply Std.ExtTreeMap.ext_getElem?
  intro file
  by_cases hnone : ∀ row, b.has file row = false
  · have hnone' : ∀ row, b'.has file row = false := by
      intro row
      rw [← hsame]
      exact hnone row
    rw [h.getElem?_eq_none hnone, h'.getElem?_eq_none hnone']
  · -- both have the file, and `rows` reads the same set off both
    simp only [not_forall, Bool.not_eq_false] at hnone
    obtain ⟨row, hrow⟩ := hnone
    obtain ⟨rows, hrows, _⟩ := has_iff.mp hrow
    obtain ⟨rows', hrows', _⟩ := has_iff.mp (hsame file row ▸ hrow)
    rw [hrows, hrows', Option.some.injEq]
    apply Std.ExtTreeSet.ext_contains
    intro r
    have hr := hsame file r
    rwa [has, has, Breakpoints.rows, Breakpoints.rows, Std.ExtTreeMap.getD_eq_getD_getElem?,
      Std.ExtTreeMap.getD_eq_getD_getElem?, hrows, hrows'] at hr

/-! ## Keeping and turning over -/

/-- Rows as they are kept of a file: not at all where there are none. -/
def kept? (rows : Std.ExtTreeSet UInt64) : Option (Std.ExtTreeSet UInt64) :=
  if rows.isEmpty then none else some rows

lemma ne_empty_of_kept? {rows kept : Std.ExtTreeSet UInt64} (h : kept? rows = some kept) :
    kept ≠ ∅ := by
  unfold kept? at h
  split at h
  · cases h
  · next hne =>
    cases h
    intro hempty
    exact hne (Std.ExtTreeSet.isEmpty_iff.mpr hempty)

lemma contains_kept? (rows : Std.ExtTreeSet UInt64) (row : UInt64) :
    ((kept? rows).getD ∅).contains row = rows.contains row := by
  unfold kept?
  split
  · next h => rw [Std.ExtTreeSet.isEmpty_iff.mp h, Option.getD_none]
  · rw [Option.getD_some]

lemma contains_filter (rows : Std.ExtTreeSet UInt64) (p : UInt64 → Bool) (row : UInt64) :
    (rows.filter p).contains row = (rows.contains row && p row) := by
  rw [Bool.eq_iff_iff, Bool.and_eq_true, ← Std.ExtTreeSet.mem_iff_contains,
    ← Std.ExtTreeSet.mem_iff_contains, Std.ExtTreeSet.mem_filter]
  simp

lemma getElem?_keep (b : Breakpoints) (p : String → UInt64 → Bool) (file : String) :
    (b.keep p)[file]? = b[file]?.bind fun rows => kept? (rows.filter (p file)) :=
  Std.ExtTreeMap.getElem?_filterMap'

lemma noneEmpty_keep (b : Breakpoints) (p : String → UInt64 → Bool) : (b.keep p).NoneEmpty := by
  intro file rows hrows
  rw [getElem?_keep] at hrows
  obtain ⟨_, _, hkept⟩ := Option.bind_eq_some_iff.mp hrows
  exact ne_empty_of_kept? hkept

/-- A breakpoint is kept if it was there and the condition picks it. -/
theorem has_keep (b : Breakpoints) (p : String → UInt64 → Bool) (file : String) (row : UInt64) :
    (b.keep p).has file row = (b.has file row && p file row) := by
  rw [has, has, rows, rows, Std.ExtTreeMap.getD_eq_getD_getElem?,
    Std.ExtTreeMap.getD_eq_getD_getElem?, getElem?_keep]
  cases b[file]? with
  | none => simp
  | some rows => rw [Option.bind_some, contains_kept?, contains_filter, Option.getD_some]

/-- A set of rows with one of them turned over. -/
def turned (rows : Std.ExtTreeSet UInt64) (row : UInt64) : Std.ExtTreeSet UInt64 :=
  if rows.contains row then rows.erase row else rows.insert row

lemma contains_turned (rows : Std.ExtTreeSet UInt64) (row row' : UInt64) :
    (turned rows row).contains row' =
      if row = row' then !rows.contains row' else rows.contains row' := by
  unfold turned
  by_cases hrow : row = row'
  · subst hrow
    cases hset : rows.contains row <;> simp
  · rw [if_neg hrow]
    split <;> simp [Std.ExtTreeSet.contains_erase, Std.ExtTreeSet.contains_insert, hrow]

lemma getElem?_toggle (b : Breakpoints) (file file' : String) (row : UInt64) :
    (b.toggle file row)[file']? =
      if file = file' then kept? (turned (b.rows file) row) else b[file']? := by
  rw [toggle, Std.ExtTreeMap.getElem?_alter, rows, Std.ExtTreeMap.getD_eq_getD_getElem?]
  simp only [Std.compare_eq_iff_eq]
  rfl

lemma NoneEmpty.toggle (h : b.NoneEmpty) (file : String) (row : UInt64) :
    (b.toggle file row).NoneEmpty := by
  intro file' rows hrows
  rw [getElem?_toggle] at hrows
  split at hrows
  · exact ne_empty_of_kept? hrows
  · exact h file' rows hrows

/-- A toggle turns one breakpoint over and leaves all others alone. -/
theorem has_toggle (b : Breakpoints) (file file' : String) (row row' : UInt64) :
    (b.toggle file row).has file' row' =
      if file = file' ∧ row = row' then !b.has file' row' else b.has file' row' := by
  rw [has, rows, Std.ExtTreeMap.getD_eq_getD_getElem?, getElem?_toggle]
  by_cases hfile : file = file'
  · subst hfile
    simp only [if_true, true_and]
    rw [contains_kept?, contains_turned, has]
  · rw [if_neg hfile, if_neg fun h => hfile h.1, has, rows, Std.ExtTreeMap.getD_eq_getD_getElem?]

end Breakpoints

/-! ## Operations on an index -/

/-- What is done to an index of listings. -/
inductive ListingOperation where
  | replace (listings : List Listing)
  | clear
  | select (file : String)
  | toggle (file : String) (row : UInt64)
  | focus (pc : UInt32)

namespace ListingOperation

/-- The index after an operation. To select a file that is not listed does nothing. -/
def apply (x : ListingIndex) : ListingOperation → ListingIndex
  | replace listings => x.replace listings
  | clear => x.clear
  | select file => (x.select? file).getD x
  | toggle file row => x.toggle file row
  | focus pc => (x.focus pc).1

/-- Whether an operation is one that leaves the breakpoints alone. -/
def KeepsBreakpoints : ListingOperation → Prop
  | replace _ => False
  | clear => True
  | select _ => True
  | toggle .. => False
  | focus _ => True

end ListingOperation

namespace ListingIndex

variable {x y : ListingIndex} {file : String} {row : UInt64} {pc : UInt32} {i : Nat}
  {listings : List Listing}

/-- The active listing exists, no file is kept without breakpoints, and no breakpoint of a listed
file is behind the last row. -/
structure Valid (x : ListingIndex) : Prop where
  active_eq_none : x.active = none ↔ x.listings = []
  active_lt : ∀ i, x.active = some i → i < x.listings.length
  noneEmpty : x.breakpoints.NoneEmpty
  row_lt : ∀ (file : String) (row : UInt64) (l : Listing), x.get? file = some l →
    x.breakpoints.has file row = true → row.toNat < l.rows.length

lemma hasRow_iff : hasRow listings file row = true ↔
    ∃ l, listings.find? (·.file == file) = some l ∧ row.toNat < l.rows.length := by
  rw [hasRow, Option.any_eq_true]
  simp only [decide_eq_true_eq]

/-- A place that is found is one of the list. -/
lemma lt_of_findIdx?_eq_some {p : Listing → Bool} (h : listings.findIdx? p = some i) :
    i < listings.length := by
  obtain ⟨hlt, _⟩ := List.findIdx?_eq_some_iff_getElem.mp h
  exact hlt

/-! ## Taking new listings -/

/-- An index has taken new listings. -/
structure Takes (x : ListingIndex) (listings : List Listing) (y : ListingIndex) : Prop where
  listings_eq : y.listings = listings
  /-- A breakpoint stays if the first listing of its file has its row. -/
  has_iff : ∀ (file : String) (row : UInt64), y.breakpoints.has file row = true ↔
    x.breakpoints.has file row = true ∧
      ∃ l, listings.find? (·.file == file) = some l ∧ row.toNat < l.rows.length
  /-- The active file stays active where it is listed. -/
  stays : ∀ (file : String), x.activeFile? = some file → (∃ l ∈ listings, l.file = file) →
    y.activeFile? = some file
  /-- Where it is not, the first listing becomes active. -/
  first : (∀ (file : String), x.activeFile? = some file → ∀ l ∈ listings, l.file ≠ file) →
    y.active = if listings = [] then none else some 0

lemma activeFile?_of_active {l : Listing} (hi : x.active = some i) (hl : x.listings[i]? = some l) :
    x.activeFile? = some l.file := by
  rw [activeFile?, activeListing?, hi, Option.bind_some, hl, Option.map_some]

lemma activeFile?_of_findIdx? (hactive : x.active = some i)
    (h : x.listings.findIdx? (·.file == file) = some i) : x.activeFile? = some file := by
  obtain ⟨hlt, hfile, _⟩ := List.findIdx?_eq_some_iff_getElem.mp h
  rw [activeFile?_of_active hactive (List.getElem?_eq_getElem hlt)]
  exact congrArg some (beq_iff_eq.mp hfile)

/-- A file that is listed has a first place. -/
lemma exists_findIdx? {l : Listing} (hl : l ∈ listings) :
    ∃ i, listings.findIdx? (·.file == l.file) = some i := by
  rw [← Option.isSome_iff_exists, List.findIdx?_isSome, List.any_eq_true]
  exact ⟨l, hl, beq_self_eq_true _⟩

/-- The place that is active among new listings. -/
lemma active_replace (x : ListingIndex) (listings : List Listing) :
    (x.replace listings).active =
      (x.activeFile?.bind fun file => listings.findIdx? (·.file == file)).or
        (if listings = [] then none else some 0) := by
  simp only [replace]
  cases x.activeFile?.bind fun file => listings.findIdx? (·.file == file) with
  | some i => rfl
  | none => simp only [List.isEmpty_iff, Option.none_or]

lemma active_replace_of_findIdx? (hfile : x.activeFile? = some file)
    (hi : listings.findIdx? (·.file == file) = some i) : (x.replace listings).active = some i := by
  rw [active_replace, hfile, Option.bind_some, hi, Option.some_or]

theorem takes_replace (x : ListingIndex) (listings : List Listing) :
    x.Takes listings (x.replace listings) where
  listings_eq := rfl
  has_iff := by
    intro file row
    show (x.breakpoints.keep (hasRow listings)).has file row = true ↔ _
    rw [Breakpoints.has_keep, Bool.and_eq_true, hasRow_iff]
  stays := by
    rintro file hfile ⟨l, hl, rfl⟩
    obtain ⟨i, hi⟩ := exists_findIdx? hl
    exact activeFile?_of_findIdx? (active_replace_of_findIdx? hfile hi) hi
  first := by
    intro hgone
    have hnone : x.activeFile?.bind (fun file => listings.findIdx? (·.file == file)) = none := by
      rw [Option.bind_eq_none_iff]
      intro file hfile
      rw [List.findIdx?_eq_none_iff]
      intro l hl
      exact beq_false_of_ne (hgone file hfile l hl)
    rw [active_replace, hnone, Option.none_or]

/-- Whatever an index was before, it is valid once it has taken new listings. -/
theorem valid_replace (x : ListingIndex) (listings : List Listing) :
    (x.replace listings).Valid where
  active_eq_none := by
    rw [active_replace, Option.or_eq_none_iff]
    show _ ↔ listings = []
    constructor
    · rintro ⟨-, hempty⟩
      by_contra hne
      rw [if_neg hne] at hempty
      cases hempty
    · rintro rfl
      refine ⟨?_, if_pos rfl⟩
      cases x.activeFile? <;> rfl
  active_lt := by
    intro i hi
    show i < listings.length
    rw [active_replace, Option.or_eq_some_iff] at hi
    rcases hi with hi | ⟨-, hi⟩
    · obtain ⟨file, _, hi⟩ := Option.bind_eq_some_iff.mp hi
      exact lt_of_findIdx?_eq_some hi
    · split at hi
      · cases hi
      · next hne =>
        cases hi
        exact List.length_pos_iff.mpr hne
  noneEmpty := Breakpoints.noneEmpty_keep _ _
  row_lt := by
    intro file row l hl hrow
    obtain ⟨-, m, hm, hlt⟩ := ((takes_replace x listings).has_iff file row).mp hrow
    have hlm : some l = some m := hl.symm.trans hm
    cases hlm
    exact hlt

/-! ## Other operations -/

lemma valid_empty : ({} : ListingIndex).Valid where
  active_eq_none := ⟨fun _ => rfl, fun _ => rfl⟩
  active_lt := by
    intro i hi
    cases hi
  noneEmpty := by
    intro file rows hrows
    have hnone : (∅ : Breakpoints)[file]? = none := Std.ExtTreeMap.getElem?_empty
    rw [hnone] at hrows
    cases hrows
  row_lt := by
    intro file row l hl
    cases hl

lemma Valid.clear (h : x.Valid) : x.clear.Valid where
  active_eq_none := ⟨fun _ => rfl, fun _ => rfl⟩
  active_lt := by
    intro i hi
    cases hi
  noneEmpty := h.noneEmpty
  row_lt := by
    intro file row l hl
    cases hl

/-- A listed place can become active. -/
lemma Valid.activate (h : x.Valid) (hi : i < x.listings.length) :
    ({ x with active := some i } : ListingIndex).Valid where
  active_eq_none := by
    constructor
    · intro hactive
      cases hactive
    · intro hnil
      rw [show x.listings = [] from hnil] at hi
      exact absurd hi (Nat.not_lt_zero i)
  active_lt := by
    intro j hj
    cases hj
    exact hi
  noneEmpty := h.noneEmpty
  row_lt := h.row_lt

lemma Valid.select (h : x.Valid) (hy : x.select? file = some y) : y.Valid := by
  obtain ⟨i, hi, rfl⟩ := Option.map_eq_some_iff.mp hy
  exact h.activate (lt_of_findIdx?_eq_some hi)

lemma Valid.focus (h : x.Valid) (pc : UInt32) : (x.focus pc).1.Valid := by
  unfold ListingIndex.focus
  split
  · exact h
  · split
    · next i hi => exact h.activate (lt_of_findIdx?_eq_some hi)
    · exact h

/-- A toggle that is not ignored only sets a breakpoint on a row that is there, or on any row of a
file that is not listed. -/
lemma Valid.toggle (h : x.Valid) (file : String) (row : UInt64) : (x.toggle file row).Valid := by
  unfold ListingIndex.toggle
  split
  · exact h
  · next hheeded =>
    refine ⟨h.active_eq_none, h.active_lt, h.noneEmpty.toggle file row, ?_⟩
    intro file' row' l hl hrow
    rw [Breakpoints.has_toggle] at hrow
    by_cases hself : file = file' ∧ row = row'
    · obtain ⟨rfl, rfl⟩ := hself
      have hl' : x.get? file = some l := hl
      rw [ignoresToggle, hl', Option.any_some, decide_eq_true_eq] at hheeded
      exact Nat.not_le.mp hheeded
    · rw [if_neg hself] at hrow
      exact h.row_lt file' row' l hl hrow

lemma Valid.apply (h : x.Valid) (o : ListingOperation) : (o.apply x).Valid := by
  cases o with
  | replace listings => exact valid_replace x listings
  | clear => exact h.clear
  | select file =>
    show ((x.select? file).getD x).Valid
    cases hy : x.select? file with
    | none => exact h
    | some y => exact h.select hy
  | toggle file row => exact h.toggle file row
  | focus pc => exact h.focus pc

/-- Whatever is done to a valid index, it stays valid. -/
theorem Valid.foldl (operations : List ListingOperation) (h : x.Valid) :
    (operations.foldl ListingOperation.apply x).Valid := by
  induction operations generalizing x with
  | nil => exact h
  | cons o operations ih => exact ih (h.apply o)

lemma breakpoints_select (hy : x.select? file = some y) : y.breakpoints = x.breakpoints := by
  obtain ⟨i, _, rfl⟩ := Option.map_eq_some_iff.mp hy
  rfl

/-- All that focusing changes is the active place. -/
lemma focus_listings (x : ListingIndex) (pc : UInt32) :
    (x.focus pc).1 = { x with active := (x.focus pc).1.active } := by
  unfold focus
  split
  · rfl
  · split <;> rfl

lemma breakpoints_focus (x : ListingIndex) (pc : UInt32) :
    (x.focus pc).1.breakpoints = x.breakpoints := by
  rw [focus_listings]

lemma breakpoints_apply {o : ListingOperation} (ho : o.KeepsBreakpoints) (x : ListingIndex) :
    (o.apply x).breakpoints = x.breakpoints := by
  cases o with
  | replace listings => exact ho.elim
  | clear => rfl
  | select file =>
    show ((x.select? file).getD x).breakpoints = x.breakpoints
    cases hy : x.select? file with
    | none => rfl
    | some y => exact breakpoints_select hy
  | toggle file row => exact ho.elim
  | focus pc => exact breakpoints_focus x pc

/-- Only new listings and toggles change the breakpoints. -/
theorem breakpoints_foldl {operations : List ListingOperation}
    (h : ∀ o ∈ operations, o.KeepsBreakpoints) (x : ListingIndex) :
    (operations.foldl ListingOperation.apply x).breakpoints = x.breakpoints := by
  induction operations generalizing x with
  | nil => rfl
  | cons o operations ih =>
    rw [List.foldl_cons, ih (fun o' ho' => h o' (List.mem_cons_of_mem o ho'))]
    exact breakpoints_apply (h o (List.mem_cons_self ..)) x

end ListingIndex

end SicDebugger
