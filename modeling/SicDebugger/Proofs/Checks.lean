import SicDebugger.Proofs.Findings

/-!
# What syntax checks leave

The answer to a syntax check names files, some of them more than once and under several spellings.
Under each key that it names, what checks have found is replaced by the errors that the answer gives
with the last file under the key; what loads have found stays, and so does every other bucket. Of a
file that is reported to be fine nothing should be left. This is so as long as such a file comes
without errors, since the report is not looked at.
-/

namespace SicDebugger

namespace CheckedFile

/-- What a check has found in a file. -/
def findings (f : CheckedFile) : List Diagnostic :=
  f.errors.map (Diagnostic.ofAssembler · .check)

/-- What is to be left of a check of a file: nothing if the file is reported to be fine, and else
what was found. -/
def due (f : CheckedFile) : List Diagnostic := if f.ok then [] else f.findings

variable {f : CheckedFile}

lemma map_origin_findings (f : CheckedFile) :
    f.findings.map (fun d => { d with origin := .check }) = f.findings := by
  rw [findings, List.map_map]
  rfl

/-- What was found is due unless a file is reported to be fine and has errors all the same. -/
lemma findings_eq_due_iff : f.findings = f.due ↔ (f.ok = true → f.errors = []) := by
  rw [due]
  cases f.ok with
  | false => simp
  | true => simp [findings]

end CheckedFile

namespace Controller

variable {c : Controller} {t : TaskId} {role : Role} {files : List CheckedFile} {key : String}

/-! ## The answer to a check -/

lemma applyCheck_eq (d : DiagnosticTable) (files : List CheckedFile) :
    applyCheck d files = d.replaceEach .check CheckedFile.name CheckedFile.findings files := rfl

lemma checked_applyCheck (d : DiagnosticTable) (files : List CheckedFile) (key : String) :
    (applyCheck d files).found .check key =
      (d.lastUnder? CheckedFile.name files key).elim (d.found .check key)
        CheckedFile.findings := by
  rw [applyCheck_eq, DiagnosticTable.found_replaceEach]
  simp only [CheckedFile.map_origin_findings]

lemma loaded_applyCheck (d : DiagnosticTable) (files : List CheckedFile) (key : String) :
    (applyCheck d files).found .load key = d.found .load key :=
  DiagnosticTable.found_replaceEach_of_ne (by decide) d files key

/-- A task that waits for a check takes its answer. -/
lemma happen?_checked (ht : c.tasks[t]? = some ⟨role, .check⟩) (files : List CheckedFile) :
    ∃ d news, c.happen? (.checked t (.ok files)) = some (d, news) ∧
      d.session.diagnostics = applyCheck c.session.diagnostics files := by
  have hd : { c with history := [] }.perform? (.checked t (.ok files)) =
      some ({ c with history := [] }.afterCheck t (.ok files)) := by
    simp only [perform?, ht]
  exact ⟨_, _, happen?_of_perform hd, rfl⟩

/-- Under each key that the answer to a check names, what checks have found is what the last file
under the key has; it is what is due exactly if that file is not reported to be fine while it has
errors. What loads have found stays, and so does the bucket under any key that is not named. -/
theorem check_leaves_due_iff (ht : c.tasks[t]? = some ⟨role, .check⟩)
    (files : List CheckedFile) :
    ∃ d news, c.happen? (.checked t (.ok files)) = some (d, news) ∧
      (∀ key, (∃ f ∈ files, c.session.diagnostics.key f.name = key) →
        ∃ f, c.session.diagnostics.lastUnder? CheckedFile.name files key = some f ∧
          d.session.diagnostics.found .check key = f.findings ∧
          (d.session.diagnostics.found .check key = f.due ↔ (f.ok = true → f.errors = []))) ∧
      (∀ key, d.session.diagnostics.found .load key = c.session.diagnostics.found .load key) ∧
      ∀ key : String, (∀ f ∈ files, c.session.diagnostics.key f.name ≠ key) →
        d.session.diagnostics.buckets[key]? = c.session.diagnostics.buckets[key]? := by
  obtain ⟨d, news, hd, hdiagnostics⟩ := happen?_checked ht files
  refine ⟨d, news, hd, ?_, ?_, ?_⟩
  · intro key hnamed
    obtain ⟨f, hf⟩ :=
      Option.isSome_iff_exists.mp (DiagnosticTable.lastUnder?_isSome_iff.mpr hnamed)
    have hfound : d.session.diagnostics.found .check key = f.findings := by
      rw [hdiagnostics, checked_applyCheck, hf, Option.elim_some]
    refine ⟨f, hf, hfound, ?_⟩
    rw [hfound]
    exact CheckedFile.findings_eq_due_iff
  · intro key
    rw [hdiagnostics, loaded_applyCheck]
  · intro key hunnamed
    rw [hdiagnostics, applyCheck_eq]
    exact DiagnosticTable.getElem?_replaceEach hunnamed

/-- A source with an error that a check has found. -/
def mislabelled (name : String) : CheckedFile :=
  ⟨name, false, [{ row := 4, message := "bad label" }]⟩

/-- A source that is reported to be fine. -/
def fine (name : String) : CheckedFile := ⟨name, true, []⟩

/-- A load finds an error in a source, and a check is asked. -/
def loadAndCheck : List Event :=
  [.request .step, .began 0 (.ok ()), .loaded 0 (.ok (.failed [faulty])),
    .request (.check ["LDX"] ["main.asm"])]

/-- What a load has found in a source stays when a check names the source twice, and reports it to
be fine in the end. Another source is not fine. -/
theorem check_of_two_sources : ∃ log c d news,
    replay (.ofSettings oneSource) loadAndCheck = some (log, c) ∧
    c.tasks[1]? = some ⟨.request, .check⟩ ∧
    c.happen? (.checked 1 (.ok [mislabelled "./main.asm", mislabelled "sub.asm",
      fine "main.asm"])) = some (d, news) ∧
    d.session.diagnostics.found .check "main.asm" = [] ∧
    d.session.diagnostics.found .check "sub.asm" = (mislabelled "sub.asm").findings ∧
    d.session.diagnostics.found .load "main.asm" = Session.fileDiagnostics faulty := by
  obtain ⟨log, c, hlog, hend⟩ := exists_replay_eq (.ofSettings oneSource) loadAndCheck (by rfl)
  have hc : c = ((replay (.ofSettings oneSource) loadAndCheck).get (by rfl)).2 :=
    congrArg Prod.snd hend
  have ht : c.tasks[1]? = some ⟨.request, .check⟩ := by
    rw [hc]
    rfl
  have hload : c.session.diagnostics.found .load "main.asm" = Session.fileDiagnostics faulty := by
    rw [hc]
    decide +kernel
  have hkey (file : String) : c.session.diagnostics.key file = Path.key none file := by
    rw [hc]
    rfl
  obtain ⟨d, news, hd, hchecked, hloaded, -⟩ := check_leaves_due_iff ht
    [mislabelled "./main.asm", mislabelled "sub.asm", fine "main.asm"]
  simp only [DiagnosticTable.lastUnder?, hkey] at hchecked
  obtain ⟨main, hmain, -, hmaindue⟩ :=
    hchecked "main.asm" ⟨fine "main.asm", by simp, by decide +kernel⟩
  obtain ⟨sub, hsub, hsubfound, -⟩ :=
    hchecked "sub.asm" ⟨mislabelled "sub.asm", by simp, by decide +kernel⟩
  obtain rfl : fine "main.asm" = main := Option.some.inj (.trans (by decide +kernel) hmain)
  obtain rfl : mislabelled "sub.asm" = sub := Option.some.inj (.trans (by decide +kernel) hsub)
  exact ⟨log, c, d, news, hlog, ht, hd, hmaindue.mpr fun _ => rfl, hsubfound,
    (hloaded _).trans hload⟩

/-- An answer to a check that reports a source to be fine, and warns of a label. -/
def warned : Arrival := .answered 200 <|
  "\x7b\"ok\":true,\"files\":[\x7b\"fileName\":\"main.asm\",\"ok\":true,\"compileErrors\":" ++
    "[\x7b\"row\":4,\"message\":\"unused label\",\"nonbreaking\":true\x7d]\x7d]\x7d"

/-- A warning is left of the check of a source that is reported to be fine. -/
theorem warning_left_of_fine_source : ∃ log c f d news,
    replay (.ofSettings oneSource) [.request (.check ["LDX"] ["main.asm"])] = some (log, c) ∧
    warned.checked = .ok [f] ∧ f.name = "main.asm" ∧ f.ok = true ∧
    c.happen? (.checked 0 warned.checked) = some (d, news) ∧
    d.session.diagnostics.found .check "main.asm" ≠ [] := by
  obtain ⟨log, c, hlog, hend⟩ := exists_replay_eq (.ofSettings oneSource)
    [.request (.check ["LDX"] ["main.asm"])] (by rfl)
  have hc : c = ((replay (.ofSettings oneSource)
      [.request (.check ["LDX"] ["main.asm"])]).get (by rfl)).2 := congrArg Prod.snd hend
  have hwarned : warned.checked = .ok [⟨"main.asm", true,
      [{ row := 4, message := "unused label", nonbreaking := true }]⟩] := by decide +kernel
  have hleft : (c.happen? (.checked 0 warned.checked)).map
      (·.1.session.diagnostics.found .check "main.asm") =
        some [⟨4, 0, none, "unused label", .check⟩] := by
    rw [hwarned, hc]
    decide +kernel
  obtain ⟨⟨d, news⟩, hd, hfound⟩ := Option.map_eq_some_iff.mp hleft
  refine ⟨log, c, _, d, news, hlog, hwarned, rfl, rfl, hd, ?_⟩
  rw [hfound]
  exact List.cons_ne_nil _ _

end Controller
end SicDebugger
