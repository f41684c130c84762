import SicDebugger.Proofs.Focus
import SicDebugger.Proofs.Origins
import SicDebugger.Session

/-!
# Loading anew

A load that brings a program replaces what an earlier one brought and merges nothing with it. What
the session is afterwards depends only on the breakpoints, the active file, the range of the memory
window, and what checks have found. The active file is kept by its name and can then give way to a
listing with the instruction at the start, which may have the same name; still, to take the same
program again changes nothing.
-/

namespace SicDebugger

namespace ListingIndex

variable {x y : ListingIndex} {listings : List Listing} {pc : UInt32} {i : Nat} {file : String}
  {l : Listing} {place : Option Nat}

/-- Indices with the same breakpoints and active file take new listings alike. -/
lemma replace_congr (hfile : x.activeFile? = y.activeFile?)
    (hhas : ∀ file row, x.breakpoints.has file row = y.breakpoints.has file row)
    (listings : List Listing) : x.replace listings = y.replace listings := by
  have hkeep : x.breakpoints.keep (hasRow listings) = y.breakpoints.keep (hasRow listings) := by
    apply (Breakpoints.noneEmpty_keep _ _).ext (Breakpoints.noneEmpty_keep _ _)
    intro file row
    rw [Breakpoints.has_keep, Breakpoints.has_keep, hhas]
  unfold replace
  rw [hfile, hkeep]

/-- The place that is active among new listings is the first one of its file. -/
lemma findIdx?_of_active_replace (hi : (x.replace listings).active = some i)
    (hl : listings[i]? = some l) : listings.findIdx? (·.file == l.file) = some i := by
  rw [active_replace, Option.or_eq_some_iff] at hi
  rcases hi with hi | ⟨-, hi⟩
  · obtain ⟨file, _, hi⟩ := Option.bind_eq_some_iff.mp hi
    obtain ⟨hlt, hfile, _⟩ := List.findIdx?_eq_some_iff_getElem.mp hi
    rw [List.getElem?_eq_getElem hlt, Option.some.injEq] at hl
    rwa [← hl, beq_iff_eq.mp hfile]
  · cases listings with
    | nil => cases hl
    | cons m listings =>
      rw [if_neg (List.cons_ne_nil _ _)] at hi
      cases hi
      cases hl
      rw [List.findIdx?_cons, if_pos (beq_self_eq_true l.file)]

/-- To take the same listings again leaves the active place. -/
lemma active_replace_again (hlistings : y.listings = listings)
    (hactive : y.active = (x.replace listings).active) :
    (y.replace listings).active = (x.replace listings).active := by
  have hvalid : (x.replace listings).Valid := valid_replace x listings
  cases hi : (x.replace listings).active with
  | none =>
    have hnil : listings = [] := hvalid.active_eq_none.mp hi
    exact (valid_replace y listings).active_eq_none.mpr hnil
  | some i =>
    obtain ⟨l, hl⟩ : ∃ l, listings[i]? = some l :=
      ⟨_, List.getElem?_eq_getElem (hvalid.active_lt i hi)⟩
    have hfile := activeFile?_of_active (hactive.trans hi) (hlistings ▸ hl)
    exact active_replace_of_findIdx? hfile (findIdx?_of_active_replace hi hl)

/-- To take the same listings again and focus again leaves the active place. Where the focus left
the active file for a listing of the same name, the name leads back to the earlier one, and the
focus leaves it again. -/
lemma focuses_again (hlistings : y.listings = listings)
    (h : (x.replace listings).Focuses pc y.active) : (y.replace listings).Focuses pc y.active := by
  generalize hplace : y.active = place at h
  cases h with
  | stays hactive hat =>
    refine .stays ?_ hat
    rw [active_replace_again hlistings (hplace.trans hactive.symm), hactive]
  | @switches i hactive hat hfirst =>
    obtain ⟨l, hl, _⟩ := id hat
    have hfile : y.activeFile? = some l.file := activeFile?_of_active hplace (hlistings ▸ hl)
    obtain ⟨hlt, hli⟩ := List.getElem?_eq_some_iff.mp hl
    obtain ⟨j, hj⟩ := exists_findIdx? (List.mem_of_getElem? hl)
    obtain ⟨_, _, hleast⟩ := List.findIdx?_eq_some_iff_getElem.mp hj
    have hback : (y.replace listings).active = some j := active_replace_of_findIdx? hfile hj
    have hle : j ≤ i := by
      by_contra hlt'
      exact hleast i (Nat.lt_of_not_le hlt') (hli ▸ beq_self_eq_true _)
    rcases Nat.lt_or_eq_of_le hle with hji | rfl
    · refine .switches ?_ hat hfirst
      intro k hk
      rw [hback] at hk
      cases hk
      exact hfirst j hji
    · exact .stays hback hat
  | nowhere hnone =>
    rw [← active_replace_again hlistings hplace]
    exact .nowhere hnone

/-- To take the same listings again and focus again changes nothing. -/
theorem replace_focus_again (x : ListingIndex) (listings : List Listing) (pc : UInt32) :
    ((((x.replace listings).focus pc).1.replace listings).focus pc).1 =
      ((x.replace listings).focus pc).1 := by
  have hy := focus_listings (x.replace listings) pc
  have hfocuses := focuses_focus (x.replace listings) pc
  generalize ((x.replace listings).focus pc).1 = y at hy hfocuses
  have hlistings : y.listings = listings := congrArg ListingIndex.listings hy
  have hbreakpoints : (y.replace listings).breakpoints = y.breakpoints := by
    rw [congrArg ListingIndex.breakpoints hy]
    apply (Breakpoints.noneEmpty_keep _ _).ext (Breakpoints.noneEmpty_keep _ _)
    intro file row
    rw [Breakpoints.has_keep, congrArg ListingIndex.breakpoints hy]
    show ((x.breakpoints.keep (hasRow listings)).has file row && hasRow listings file row) =
      (x.breakpoints.keep (hasRow listings)).has file row
    rw [Breakpoints.has_keep, Bool.and_assoc, Bool.and_self]
  have hactive : ((y.replace listings).focus pc).1.active = y.active :=
    (focuses_focus _ _).unique (focuses_again hlistings hfocuses)
  rw [focus_listings, hactive, hbreakpoints]
  show ListingIndex.mk listings y.active y.breakpoints = y
  rw [← hlistings]

end ListingIndex

namespace Session

variable {s s' : Session}

/-- Two sessions agree on what outlives a load. -/
structure Agrees (s s' : Session) : Prop where
  has : ∀ (file : String) (row : UInt64),
    s.listings.breakpoints.has file row = s'.listings.breakpoints.has file row
  activeFile : s.listings.activeFile? = s'.listings.activeFile?
  range : s.memory.range = s'.memory.range
  root : s.diagnostics.root = s'.diagnostics.root
  checked : ∀ (key : String), s.diagnostics.found .check key = s'.diagnostics.found .check key

/-- What a session is after a load has brought a program. -/
structure Brings (s : Session) (registers : RegisterSnapshot) (files : List LoadedFile)
    (after : Session) : Prop where
  registers_eq : after.registers = { snapshot := some registers, changed := .empty }
  listings_eq : after.listings.listings = files.map fun f => ⟨f.name, f.rows⟩
  /-- The active file stays, unless another listing has the instruction at the start. -/
  active : ∃ x, s.listings.Takes (files.map fun f => ⟨f.name, f.rows⟩) x ∧
    x.Focuses registers.pc after.listings.active
  /-- A breakpoint stays if its row is there. -/
  has_iff : ∀ (file : String) (row : UInt64), after.listings.breakpoints.has file row = true ↔
    s.listings.breakpoints.has file row = true ∧
      ∃ f, files.find? (·.name == file) = some f ∧ row.toNat < f.rows.length
  entries_eq : after.watches.entries = files.flatMap fun f => f.watches.map (⟨f.name, ·⟩)
  valueAt?_eq : ∀ (address : UInt32), after.watches.valueAt? address = none
  memory_eq : after.memory = { range := s.memory.range }
  root_eq : after.diagnostics.root = s.diagnostics.root
  checked : ∀ (key : String), after.diagnostics.found .check key = s.diagnostics.found .check key
  loaded : ∀ (key : String), after.diagnostics.found .load key = []

lemma brings_applyLoaded (s : Session) (registers : RegisterSnapshot) (files : List LoadedFile) :
    s.Brings registers files (s.applyLoaded registers files) where
  registers_eq := rfl
  listings_eq := by
    show ((s.listings.replace _).focus registers.pc).1.listings = _
    rw [ListingIndex.focus_listings]
    rfl
  active := ⟨_, ListingIndex.takes_replace _ _, ListingIndex.focuses_focus _ _⟩
  has_iff := by
    intro file row
    show ((s.listings.replace _).focus registers.pc).1.breakpoints.has file row = true ↔ _
    rw [ListingIndex.breakpoints_focus, (ListingIndex.takes_replace _ _).has_iff]
    simp only [List.find?_map, Option.map_eq_some_iff, exists_exists_and_eq_and]
    rfl
  entries_eq := rfl
  valueAt?_eq := by
    intro address
    exact Std.ExtTreeMap.getElem?_empty
  memory_eq := rfl
  root_eq := rfl
  checked := by
    intro key
    exact DiagnosticTable.found_clearOrigin s.diagnostics .load .check key
  loaded := by
    intro key
    exact DiagnosticTable.found_clearOrigin s.diagnostics .load .load key

lemma applyLoaded_congr (h : s.Agrees s') (registers : RegisterSnapshot)
    (files : List LoadedFile) :
    s.applyLoaded registers files = s'.applyLoaded registers files := by
  have hdiagnostics : s.diagnostics.clearOrigin .load = s'.diagnostics.clearOrigin .load :=
    DiagnosticTable.clearOrigin_congr h.root h.checked
  simp only [applyLoaded, ListingIndex.replace_congr h.activeFile h.has, hdiagnostics, h.range,
    RegisterCache.clear, WatchRegistry.replace]

lemma applyLoaded_again (s : Session) (registers : RegisterSnapshot) (files : List LoadedFile) :
    (s.applyLoaded registers files).applyLoaded registers files =
      s.applyLoaded registers files := by
  unfold applyLoaded
  simp only [ListingIndex.replace_focus_again, DiagnosticTable.clearOrigin_again]
  rfl

/-- A load that brings a program replaces and never merges. Sessions that agree on what outlives a
load come to be equal, with exactly the listings, variables and registers that the load brings, and
the same load changes nothing when it is taken again. -/
theorem load_replaces_session (registers : RegisterSnapshot) (files : List LoadedFile) :
    (∀ s s' : Session, s.Agrees s' →
      s.applyLoad (.loaded registers files) = s'.applyLoad (.loaded registers files)) ∧
    ∀ s : Session, s.Brings registers files (s.applyLoad (.loaded registers files)).1 ∧
      (s.applyLoad (.loaded registers files)).1.applyLoad (.loaded registers files) =
        s.applyLoad (.loaded registers files) := by
  refine ⟨?_, ?_⟩
  · intro s s' h
    show (s.applyLoaded registers files, LoadReport.loaded) = (s'.applyLoaded registers files, _)
    rw [applyLoaded_congr h]
  · intro s
    refine ⟨s.brings_applyLoaded registers files, ?_⟩
    show ((s.applyLoaded registers files).applyLoaded registers files, LoadReport.loaded) =
      (s.applyLoaded registers files, _)
    rw [applyLoaded_again]

/-- A session whose active listing is the only one. -/
def fresh : Session where
  listings := {
    listings := [⟨"main.asm", []⟩]
    active := some 0
    breakpoints := (∅ : Breakpoints).toggle "main.asm" 1 }
  memory := { range := ⟨0, 31, by decide⟩ }

/-- A session with the same active file, and with traces of another load and of steps. -/
def worn : Session where
  registers := { snapshot := some { pc := 9 }, changed := .ofPred (· == .PC) }
  listings := {
    listings := [⟨"lib.asm", [{}]⟩, ⟨"main.asm", [{}, {}]⟩]
    active := some 1
    breakpoints := (∅ : Breakpoints).toggle "main.asm" 1 }
  watches := { entries := [⟨"lib.asm", { name := "sum", address := 9 }⟩], values := {(9, [1])} }
  diagnostics := ({} : DiagnosticTable).replaceOrigin "main.asm" .load
    [{ row := 1, col := 0, message := "undefined symbol", origin := .load }]
  memory := { range := ⟨0, 31, by decide⟩, values := [1, 2] }

/-- Two sources of one name, the second of which has the instruction at the start. -/
def namesakes : List LoadedFile :=
  [{ name := "main.asm", rows := [{}, {}] },
    { name := "main.asm", rows := [{ addressHex := "0", rawCodeHex := "4B2000" }] }]

/-- A session with traces becomes the same as one without, and the listing with the start is active
though another one has its name. -/
theorem worn_session_starts_fresh : worn.Agrees fresh ∧
    worn.applyLoad (.loaded {} namesakes) = fresh.applyLoad (.loaded {} namesakes) ∧
    (worn.applyLoad (.loaded {} namesakes)).1.listings.active = some 1 ∧
    (worn.applyLoad (.loaded {} namesakes)).1.listings.breakpoints.has "main.asm" 1 = true := by
  have hagrees : worn.Agrees fresh := by
    refine ⟨fun _ _ => rfl, rfl, rfl, rfl, ?_⟩
    intro key
    show (DiagnosticTable.replaceOrigin {} "main.asm" .load _).found .check key = _
    rw [DiagnosticTable.found_replaceOrigin, if_neg fun h => DiagnosticOrigin.noConfusion h.2]
    rfl
  obtain ⟨hsame, hbrings⟩ := load_replaces_session {} namesakes
  refine ⟨hagrees, hsame worn fresh hagrees, by rfl, ?_⟩
  exact ((hbrings worn).1.has_iff "main.asm" 1).mpr ⟨by rfl, _, rfl, by decide⟩

end Session
end SicDebugger
