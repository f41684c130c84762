import SicDebugger.Proofs.FailedLoads
import SicDebugger.Proofs.OwnKeys

/-!
# The errors of a failed load

A failed load takes the files of its answer one after the other, and what it finds in a file
replaces what stands under the key of the file. What earlier loads have found is gone by then, so
this can only replace errors of the same answer: of the files with one key the last one with errors
counts, and the errors of the others are lost. The place that is revealed is that of the first error
of all, whether or not it is among those that are left.
-/

namespace SicDebugger
namespace Session

variable {s : Session} {files : List LoadedFile} {f g : LoadedFile} {d : Diagnostic} {key : String}
  {place : SourcePlace}

/-- The last file with errors under a key. -/
def lastFaulty? (s : Session) (files : List LoadedFile) (key : String) : Option LoadedFile :=
  (files.filter LoadedFile.hasErrors).reverse.find? (s.diagnostics.key ·.name == key)

/-- Different files with errors have different keys. -/
def ApartWithErrors (s : Session) (files : List LoadedFile) : Prop :=
  ∀ f ∈ files, ∀ g ∈ files, f.hasErrors = true → g.hasErrors = true →
    s.diagnostics.key f.name = s.diagnostics.key g.name → f = g

/-- A load error stands under the key of a place, at its row and column. -/
def ShowsPlace (s : Session) (place : SourcePlace) : Prop :=
  ∃ d ∈ s.diagnostics.buckets.getD place.file [],
    d.origin = .load ∧ d.row = place.row ∧ d.col = place.col

/-! ## What is found -/

lemma origin_of_mem_fileDiagnostics (hd : d ∈ fileDiagnostics f) : d.origin = .load := by
  rcases List.mem_append.mp hd with hd | hd
  · obtain ⟨e, _, rfl⟩ := List.mem_map.mp hd
    rfl
  · obtain ⟨e, _, rfl⟩ := Option.map_eq_some_iff.mp (Option.mem_toList.mp hd)
    rfl

lemma fileDiagnostics_eq_nil (hf : f.hasErrors = false) : fileDiagnostics f = [] := by
  simp_all [LoadedFile.hasErrors, fileDiagnostics]

lemma found_applyFailed (s : Session) (files : List LoadedFile) (key : String) :
    (s.applyFailed files).diagnostics.found .load key =
      (s.lastFaulty? files key).elim [] fileDiagnostics := by
  rw [findsErrors_applyFailed s files key, DiagnosticTable.key_applyFailed, lastFaulty?]

/-- The errors of a file stand in its bucket if loads have found them there. -/
lemma sublist_get_iff (t : DiagnosticTable) (name : String) :
    (fileDiagnostics f).Sublist (t.get name) ↔
      (fileDiagnostics f).Sublist (t.found .load (t.key name)) := by
  constructor
  · intro h
    have hkept := h.filter (·.origin == .load)
    rwa [List.filter_eq_self.mpr fun d hd => beq_iff_eq.mpr (origin_of_mem_fileDiagnostics hd)]
      at hkept
  · exact fun h => h.trans List.filter_sublist

lemma showsPlace_iff_found (s : Session) (place : SourcePlace) : s.ShowsPlace place ↔
    ∃ d ∈ s.diagnostics.found .load place.file, d.row = place.row ∧ d.col = place.col := by
  constructor
  · rintro ⟨d, hd, horigin, hplace⟩
    exact ⟨d, List.mem_filter.mpr ⟨hd, beq_iff_eq.mpr horigin⟩, hplace⟩
  · rintro ⟨d, hd, hplace⟩
    obtain ⟨hd, horigin⟩ := List.mem_filter.mp hd
    exact ⟨d, hd, beq_iff_eq.mp horigin, hplace⟩

/-! ## What is left -/

/-- The errors of a file are left if the last file with errors under its key has them too. -/
lemma sublist_get_applyFailed_iff (hf : f ∈ files) :
    (fileDiagnostics f).Sublist ((s.applyFailed files).diagnostics.get f.name) ↔
      ∀ g, s.lastFaulty? files (s.diagnostics.key f.name) = some g →
        (fileDiagnostics f).Sublist (fileDiagnostics g) := by
  rw [sublist_get_iff, DiagnosticTable.key_applyFailed, found_applyFailed]
  cases hlast : s.lastFaulty? files (s.diagnostics.key f.name) with
  | some g =>
    simp
  | none =>
    -- no file under the key has errors, and so there are none of this one to lose
    have hclean : f.hasErrors = false := by
      rw [Bool.eq_false_iff]
      intro hfaulty
      have hmem : f ∈ (files.filter LoadedFile.hasErrors).reverse :=
        List.mem_reverse.mpr (List.mem_filter.mpr ⟨hf, hfaulty⟩)
      exact List.find?_eq_none.mp hlast f hmem (beq_self_eq_true _)
    simp [fileDiagnostics_eq_nil hclean]

/-- The place of an error is shown if the last file with errors under the key has one there. -/
lemma showsPlace_applyFailed_iff (s : Session) (files : List LoadedFile) (place : SourcePlace) :
    (s.applyFailed files).ShowsPlace place ↔ ∃ g, s.lastFaulty? files place.file = some g ∧
      ∃ d ∈ fileDiagnostics g, d.row = place.row ∧ d.col = place.col := by
  rw [showsPlace_iff_found, found_applyFailed]
  cases s.lastFaulty? files place.file <;> simp

/-- Files with different keys are each the last ones under their own. -/
lemma lastFaulty?_of_apart (h : s.ApartWithErrors files) (hf : f ∈ files)
    (hfaulty : f.hasErrors = true) :
    s.lastFaulty? files (s.diagnostics.key f.name) = some f := by
  have hsome : (s.lastFaulty? files (s.diagnostics.key f.name)).isSome = true := by
    rw [lastFaulty?, List.find?_isSome]
    exact ⟨f, List.mem_reverse.mpr (List.mem_filter.mpr ⟨hf, hfaulty⟩), beq_self_eq_true _⟩
  obtain ⟨g, hg⟩ := Option.isSome_iff_exists.mp hsome
  obtain ⟨hgmem, hgfaulty⟩ :=
    List.mem_filter.mp (List.mem_reverse.mp (List.mem_of_find?_eq_some hg))
  have hsame : s.diagnostics.key g.name = s.diagnostics.key f.name := by
    simpa using List.find?_some hg
  rw [hg, h g hgmem f hf hgfaulty hfaulty hsame]

/-- The first error of the assembler is one of a file. -/
lemma exists_of_firstError? {first : SourcePlace} (h : firstError? files = some first) :
    ∃ f ∈ files, f.hasErrors = true ∧ f.name = first.file ∧
      ∃ d ∈ fileDiagnostics f, d.row = first.row ∧ d.col = first.col := by
  obtain ⟨f, hf, hfirst⟩ := List.exists_of_findSome?_eq_some h
  obtain ⟨e, he, rfl⟩ := Option.map_eq_some_iff.mp hfirst
  have hmem : e ∈ f.assemblerErrors := List.mem_of_head? he
  refine ⟨f, hf, ?_, rfl, .ofAssembler e .load, ?_, rfl, rfl⟩
  · cases herrors : f.assemblerErrors with
    | nil =>
      rw [herrors] at he
      cases he
    | cons => simp [LoadedFile.hasErrors, herrors]
  · exact List.mem_append_left _ (List.mem_map_of_mem hmem)

/-- After a failed load the list of a file has all of its errors, those of the assembler in their
order and that of the linker, exactly if the last file with errors under its key has them as well;
and the place that is revealed is that of a load error in the bucket exactly if that last file has
an error there. -/
theorem load_errors_kept_iff (s : Session) (files : List LoadedFile) :
    (∀ f ∈ files,
      ((fileDiagnostics f).Sublist ((s.applyLoad (.failed files)).1.diagnostics.get f.name) ↔
        ∀ g, s.lastFaulty? files (s.diagnostics.key f.name) = some g →
          (fileDiagnostics f).Sublist (fileDiagnostics g))) ∧
    ∀ place, (s.applyLoad (.failed files)).2 = .failed (some place) →
      ((s.applyLoad (.failed files)).1.ShowsPlace place ↔
        ∃ g, s.lastFaulty? files place.file = some g ∧
          ∃ d ∈ fileDiagnostics g, d.row = place.row ∧ d.col = place.col) :=
  ⟨fun _ hf => sublist_get_applyFailed_iff hf,
    fun place _ => showsPlace_applyFailed_iff s files place⟩

/-- A session of a project without a root, which has no program. -/
def unloaded : Session := .ofRoot none Controller.oneSource.window

/-- A source with an error of the assembler. -/
def misspelt : LoadedFile where
  name := "a.asm"
  assemblerErrors := [{ row := 7, col := 2, message := "bad operand" }]

/-- A source with an error of the linker. -/
def unlinked (name : String) : LoadedFile where
  name := name
  linkerError := some { phase := "linker", msg := "duplicate EXTDEF" }

/-- Two sources with errors: those of the first one are left, and its place is shown. -/
theorem load_errors_kept_of_two_sources :
    misspelt ∈ [misspelt, unlinked "b.asm"] ∧
    (unloaded.applyLoad (.failed [misspelt, unlinked "b.asm"])).2 =
      .failed (some ⟨"a.asm", 7, 2⟩) ∧
    (fileDiagnostics misspelt).Sublist
      ((unloaded.applyLoad (.failed [misspelt, unlinked "b.asm"])).1.diagnostics.get "a.asm") ∧
    (unloaded.applyLoad (.failed [misspelt, unlinked "b.asm"])).1.ShowsPlace ⟨"a.asm", 7, 2⟩ := by
  have hlast : unloaded.lastFaulty? [misspelt, unlinked "b.asm"] "a.asm" = some misspelt := by
    decide +kernel
  have hkey : unloaded.diagnostics.key misspelt.name = "a.asm" := by decide +kernel
  have hreveal : (unloaded.applyLoad (.failed [misspelt, unlinked "b.asm"])).2 =
      .failed (some ⟨"a.asm", 7, 2⟩) := by decide +kernel
  obtain ⟨hkept, hshown⟩ := load_errors_kept_iff unloaded [misspelt, unlinked "b.asm"]
  refine ⟨.head _, hreveal, (hkept misspelt (.head _)).mpr fun g hg => ?_, ?_⟩
  · rw [hkey, hlast] at hg
    cases hg
    exact .refl _
  · exact (hshown _ hreveal).mpr ⟨misspelt, hlast, _, .head _, rfl, rfl⟩

/-- One source comes under two spellings. The error of the linker is all that is left, although the
place of the other error is revealed. -/
theorem load_errors_lost_under_one_key :
    (unloaded.applyLoad (.failed [misspelt, unlinked "./a.asm"])).2 =
      .failed (some ⟨"a.asm", 7, 2⟩) ∧
    (unloaded.applyLoad (.failed [misspelt, unlinked "./a.asm"])).1.diagnostics.get "a.asm" =
      fileDiagnostics (unlinked "./a.asm") ∧
    ¬ (fileDiagnostics misspelt).Sublist
      ((unloaded.applyLoad (.failed [misspelt, unlinked "./a.asm"])).1.diagnostics.get "a.asm") ∧
    ¬ (unloaded.applyLoad (.failed [misspelt, unlinked "./a.asm"])).1.ShowsPlace
      ⟨"a.asm", 7, 2⟩ := by
  refine ⟨by decide +kernel, by decide +kernel, by decide +kernel, ?_⟩
  unfold ShowsPlace
  decide +kernel

/-- A failed load loses no errors if the files with errors have different keys, and it reveals the
place of one of them. -/
theorem load_errors_kept_of_apart (h : s.ApartWithErrors files) :
    (∀ f ∈ files,
      (fileDiagnostics f).Sublist ((s.applyLoad (.failed files)).1.diagnostics.get f.name)) ∧
    ∀ place, (s.applyLoad (.failed files)).2 = .failed (some place) →
      (s.applyLoad (.failed files)).1.ShowsPlace place := by
  constructor
  · intro f hf
    refine (sublist_get_applyFailed_iff hf).mpr fun g hg => ?_
    cases hfaulty : f.hasErrors with
    | true =>
      rw [lastFaulty?_of_apart h hf hfaulty] at hg
      cases hg
      exact .refl _
    | false =>
      rw [fileDiagnostics_eq_nil hfaulty]
      exact List.nil_sublist _
  · intro place hplace
    obtain ⟨first, hfirst, rfl⟩ := DiagnosticTable.reveal_eq hplace
    obtain ⟨f, hf, hfaulty, hname, hshown⟩ := exists_of_firstError? hfirst
    refine (showsPlace_applyFailed_iff s files _).mpr ⟨f, ?_, hshown⟩
    rw [← hname]
    exact lastFaulty?_of_apart h hf hfaulty

end Session
end SicDebugger
