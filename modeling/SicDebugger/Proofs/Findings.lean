import SicDebugger.Proofs.Origins
import SicDebugger.Proofs.Tidings
import Mathlib.Logic.Function.Basic

/-!
# What checks and loads find

The table of diagnostics keeps what both origins have found in one bucket for each file. Read by
origin it is two tables, and each goes its own way: what becomes of the one is the same whether the
operations on the other happen or not. The controller works on the table by the answers to checks
and loads alone, so the answers to checks decide what checks have found, whatever loads, steps and
resets there are meanwhile, and the answers to loads decide what loads have found.
-/

namespace SicDebugger

/-! ## Operations on the table -/

/-- An operation on the table of diagnostics. -/
inductive DiagnosticOperation where
  | put (file : String) (ds : List Diagnostic)
  | replaceOrigin (file : String) (origin : DiagnosticOrigin) (ds : List Diagnostic)
  | clear
  | clearFile (file : String)
  | clearFileOrigin (file : String) (origin : DiagnosticOrigin)
  | clearOrigin (origin : DiagnosticOrigin)

namespace DiagnosticOperation

/-- The table after an operation. -/
def apply (t : DiagnosticTable) : DiagnosticOperation → DiagnosticTable
  | put file ds => t.put file ds
  | replaceOrigin file origin ds => t.replaceOrigin file origin ds
  | clear => t.clear
  | clearFile file => t.clearFile file
  | clearFileOrigin file origin => t.clearFileOrigin file origin
  | clearOrigin origin => t.clearOrigin origin

/-- What an operation makes of a table that keeps one origin alone, where a function gives the keys
of files. -/
def alone (key : String → String) (origin : DiagnosticOrigin) (found : String → List Diagnostic) :
    DiagnosticOperation → String → List Diagnostic
  | put file ds => Function.update found (key file) (ds.filter (·.origin == origin))
  | replaceOrigin file o ds =>
    if o = origin then Function.update found (key file) (ds.map fun d => { d with origin })
    else found
  | clear => fun _ => []
  | clearFile file => Function.update found (key file) []
  | clearFileOrigin file o => if o = origin then Function.update found (key file) [] else found
  | clearOrigin o => if o = origin then fun _ => [] else found

/-- Whether an operation is one on an origin. Those on whole buckets are ones on both. -/
def concerns (origin : DiagnosticOrigin) : DiagnosticOperation → Bool
  | replaceOrigin _ o _ => o == origin
  | clearFileOrigin _ o => o == origin
  | clearOrigin o => o == origin
  | _ => true

variable {t : DiagnosticTable} {o : DiagnosticOrigin} {op : DiagnosticOperation}

/-- The keys of files stay. -/
lemma key_apply (t : DiagnosticTable) (op : DiagnosticOperation) : (op.apply t).key = t.key := by
  cases op <;> rfl

lemma key_foldl (t : DiagnosticTable) (operations : List DiagnosticOperation) :
    (operations.foldl apply t).key = t.key := by
  induction operations generalizing t with
  | nil => rfl
  | cons op operations ih => rw [List.foldl_cons, ih, key_apply]

/-- An operation makes of each origin what it would make of it alone. -/
lemma found_apply (t : DiagnosticTable) (op : DiagnosticOperation) (o : DiagnosticOrigin) :
    (op.apply t).found o = op.alone t.key o (t.found o) := by
  funext key
  cases op with
  | put file ds =>
    rw [apply, alone, DiagnosticTable.found_put, Function.update_apply]
    simp only [eq_comm]
  | replaceOrigin file o' ds =>
    rw [apply, alone, DiagnosticTable.found_replaceOrigin]
    by_cases ho : o' = o
    · subst ho
      rw [if_pos rfl, Function.update_apply]
      simp only [and_true, eq_comm]
    · rw [if_neg ho, if_neg fun h => ho h.2.symm]
  | clear => exact DiagnosticTable.found_clear t o key
  | clearFile file =>
    rw [apply, alone, DiagnosticTable.found_clearFile, Function.update_apply]
    simp only [eq_comm]
  | clearFileOrigin file o' =>
    rw [apply, alone, DiagnosticTable.found_clearFileOrigin]
    by_cases ho : o' = o
    · subst ho
      rw [if_pos rfl, Function.update_apply]
      simp only [and_true, eq_comm]
    · rw [if_neg ho, if_neg fun h => ho h.2.symm]
  | clearOrigin o' =>
    rw [apply, alone, DiagnosticTable.found_clearOrigin]
    by_cases ho : o' = o
    · rw [if_pos ho, if_pos ho.symm]
    · rw [if_neg ho, if_neg fun h => ho h.symm]

/-- An operation on the other origin leaves an origin as it was. -/
lemma alone_of_not_concerns {key : String → String} {found : String → List Diagnostic}
    (h : op.concerns o = false) : op.alone key o found = found := by
  cases op with
  | replaceOrigin _ o' _ | clearFileOrigin _ o' | clearOrigin o' =>
    exact if_neg (by simpa [concerns] using h)
  | put | clear | clearFile => cases h

/-- Operations make of each origin what they would make of it alone. -/
lemma found_foldl (t : DiagnosticTable) (operations : List DiagnosticOperation)
    (o : DiagnosticOrigin) :
    (operations.foldl apply t).found o = operations.foldl (alone t.key o) (t.found o) := by
  induction operations generalizing t with
  | nil => rfl
  | cons op operations ih => rw [List.foldl_cons, ih, key_apply, found_apply, List.foldl_cons]

/-- What becomes of an origin alone is decided by the operations on it. -/
lemma foldl_alone_filter (key : String → String) (o : DiagnosticOrigin)
    (operations : List DiagnosticOperation) (found : String → List Diagnostic) :
    (operations.filter (concerns o)).foldl (alone key o) found =
      operations.foldl (alone key o) found := by
  induction operations generalizing found with
  | nil => rfl
  | cons op operations ih =>
    rw [List.filter_cons, List.foldl_cons, ← ih]
    cases h : op.concerns o with
    | true => rfl
    | false => rw [alone_of_not_concerns h, if_neg Bool.false_ne_true]

end DiagnosticOperation

/-! ## Operations of the controller -/

/-- The operations that take what a load found in files. -/
def LoadedFile.operation (f : LoadedFile) : DiagnosticOperation :=
  .replaceOrigin f.name .load (Session.fileDiagnostics f)

/-- The operation that takes what a syntax check found in a file. -/
def CheckedFile.operation (f : CheckedFile) : DiagnosticOperation :=
  .replaceOrigin f.name .check (f.errors.map (Diagnostic.ofAssembler · .check))

/-- The operations on the table of diagnostics that come of an event. -/
def Event.operations : Event → List DiagnosticOperation
  | .checked _ (.ok files) => files.map CheckedFile.operation
  | .loaded _ (.ok (.loaded ..)) => [.clearOrigin .load]
  | .loaded _ (.ok (.failed files)) =>
    .clearOrigin .load :: (files.filter LoadedFile.hasErrors).map LoadedFile.operation
  | _ => []

/-- The operations that come of an entry of a log. -/
def LogEntry.operations : LogEntry → List DiagnosticOperation
  | .event _ e => e.operations
  | .occurrence _ => []

/-- The operations on the table of diagnostics in a log, the earliest first. -/
def operationsIn (log : List LogEntry) : List DiagnosticOperation :=
  log.reverse.flatMap LogEntry.operations

lemma operationsIn_append (later earlier : List LogEntry) :
    operationsIn (later ++ earlier) = operationsIn earlier ++ operationsIn later := by
  rw [operationsIn, List.reverse_append, List.flatMap_append]
  rfl

/-- Loads bring operations on their own origin alone, and so do checks. -/
lemma Event.concerns_of_mem_operations {e : Event} {op : DiagnosticOperation}
    {o : DiagnosticOrigin} (hop : op ∈ e.operations) (ho : op.concerns o = true) :
    (∃ t result, o = .check ∧ e = .checked t result) ∨
      ∃ t result, o = .load ∧ e = .loaded t result := by
  have horigin {o' : DiagnosticOrigin} (h : (o' == o) = true) : o = o' := (beq_iff_eq.mp h).symm
  cases e with
  | checked t result =>
    cases result with
    | error err => cases hop
    | ok files =>
      obtain ⟨f, -, rfl⟩ := List.mem_map.mp hop
      exact .inl ⟨t, _, horigin ho, rfl⟩
  | loaded t result =>
    refine .inr ⟨t, result, ?_, rfl⟩
    cases result with
    | error err => cases hop
    | ok outcome =>
      cases outcome with
      | loaded registers files =>
        obtain rfl := List.mem_singleton.mp hop
        exact horigin ho
      | failed files =>
        rcases List.mem_cons.mp hop with rfl | hop
        · exact horigin ho
        · obtain ⟨f, -, rfl⟩ := List.mem_map.mp hop
          exact horigin ho
  | request | began | stepped | read | resumed => cases hop

namespace Controller

variable {log : List LogEntry} {c d start : Controller} {e : Event} {s : Scene}

lemma diagnostics_storeRead (s : Session) (target : ReadTarget)
    (result : Except Error (List UInt8)) :
    (storeRead s target result).diagnostics = s.diagnostics := by
  rw [storeRead_eq]

/-- An event that brings no operation leaves the diagnostics. -/
lemma Tidings.diagnostics (h : Tidings c e s) (he : e.operations = []) :
    s.session.diagnostics = c.session.diagnostics := by
  have hscene : c.scene.session = c.session := rfl
  cases h with
  | @checked t files =>
    -- a check that names no file
    obtain rfl : files = [] := List.map_eq_nil_iff.mp he
    rfl
  | refused => cases he
  | loaded => cases he
  | @stepped t next =>
    rw [Scene.session_takeStep, hscene, (applyStep_eq c.session next).1]
  | @ended t role next =>
    show (c.scene.takeStep next).session.diagnostics = _
    rw [Scene.session_takeStep, hscene, (applyStep_eq c.session next).1]
  | @read t role pending next slot result p => exact diagnostics_storeRead c.session p.target result
  | @refreshed t role pending next slot result p =>
    rw [Scene.session_enterAll]
    exact diagnostics_storeRead c.session p.target result
  | @windowRead t role range result => exact diagnostics_storeRead c.session (.window range) result
  | _ => rfl

/-- An event works on the diagnostics by the operations that it brings. -/
lemma diagnostics_of_perform (hd : c.perform? e = some d) :
    d.session.diagnostics = e.operations.foldl DiagnosticOperation.apply c.session.diagnostics := by
  by_cases he : e.operations = []
  · rw [he]
    exact (tidings_of_perform hd).diagnostics he
  cases e with
  | checked t result =>
    obtain ⟨_, _, rfl⟩ := perform?_checked hd
    cases result with
    | error err => exact absurd rfl he
    | ok files =>
      rw [Event.operations, List.foldl_map]
      rfl
  | loaded t result =>
    obtain ⟨_, goal, _, rfl⟩ := perform?_loaded hd
    cases result with
    | error err => exact absurd rfl he
    | ok outcome =>
      cases outcome with
      | loaded registers files =>
        show (refresh _ t .request (.load goal)).session.diagnostics = _
        rw [refresh_session]
        rfl
      | failed files =>
        rw [afterLoad_failed, conclude_session]
        show (c.takeErrors files).session.diagnostics = _
        rw [session_takeErrors, Event.operations, List.foldl_cons, List.foldl_map]
        rfl
  | request | began | stepped | read | resumed => exact absurd rfl he

/-- The diagnostics after a run are what its operations make of those before. -/
theorem Run.diagnostics (h : Run start log c) :
    c.session.diagnostics =
      (operationsIn log).foldl DiagnosticOperation.apply start.session.diagnostics := by
  refine h.invariant (P := fun log c => c.session.diagnostics =
    (operationsIn log).foldl DiagnosticOperation.apply start.session.diagnostics)
    (fun _ hc => hc) rfl ?_
  intro log c e d found hc hlog hd
  have hquiet : operationsIn (d.history.map .occurrence) = [] := by
    rw [operationsIn, List.flatMap_eq_nil_iff]
    intro x hx
    obtain ⟨o, -, rfl⟩ := List.mem_map.mp (List.mem_reverse.mp hx)
    rfl
  have hone : operationsIn [.event found e] = e.operations := List.append_nil _
  rw [diagnostics_of_perform hd, hlog, timeline, operationsIn_append, hquiet, List.append_nil,
    ← List.singleton_append, operationsIn_append, hone, List.foldl_append]

/-- An event that is no answer of an activity leaves what the activity has found. -/
lemma found_of_perform {o : DiagnosticOrigin} (hd : c.perform? e = some d)
    (he : ∀ op ∈ e.operations, op.concerns o = false) :
    d.session.diagnostics.found o = c.session.diagnostics.found o := by
  have hnone : e.operations.filter (DiagnosticOperation.concerns o) = [] := by
    rw [List.filter_eq_nil_iff]
    intro op hop
    rw [he op hop]
    exact Bool.false_ne_true
  rw [diagnostics_of_perform hd, DiagnosticOperation.found_foldl,
    ← DiagnosticOperation.foldl_alone_filter, hnone, List.foldl_nil]

/-- What checks and what loads find is kept apart. Operations on the table make of each origin what
they would make of a table that keeps it alone. What an origin has after a run comes of its own
operations in the run, so only answers to checks change what checks have found, and only answers to
loads what loads have found. -/
theorem origins_are_kept_apart :
    (∀ (t : DiagnosticTable) (operations : List DiagnosticOperation) (o : DiagnosticOrigin),
      (operations.foldl DiagnosticOperation.apply t).found o =
        operations.foldl (DiagnosticOperation.alone t.key o) (t.found o)) ∧
    (∀ start log c, Run start log c → ∀ o : DiagnosticOrigin,
      c.session.diagnostics.found o =
        ((operationsIn log).filter (DiagnosticOperation.concerns o)).foldl
          (DiagnosticOperation.alone start.session.diagnostics.key o)
          (start.session.diagnostics.found o)) ∧
    ∀ (c d : Controller) (e : Event) news, c.happen? e = some (d, news) →
      ((∀ t result, e ≠ .checked t result) →
        d.session.diagnostics.found .check = c.session.diagnostics.found .check) ∧
      ((∀ t result, e ≠ .loaded t result) →
        d.session.diagnostics.found .load = c.session.diagnostics.found .load) := by
  refine ⟨?_, ?_, ?_⟩
  · exact DiagnosticOperation.found_foldl
  · intro start log c h o
    rw [h.diagnostics, DiagnosticOperation.found_foldl, DiagnosticOperation.foldl_alone_filter]
  · intro c d e news hd
    obtain ⟨d', hd', rfl, rfl⟩ := happen?_eq_some hd
    refine ⟨?_, ?_⟩
    · intro he
      apply found_of_perform (c := { c with history := [] }) hd'
      intro op hop
      rw [Bool.eq_false_iff]
      intro ho
      rcases Event.concerns_of_mem_operations hop ho with ⟨t, result, -, rfl⟩ | ⟨_, _, h, -⟩
      · exact he t result rfl
      · cases h
    · intro he
      apply found_of_perform (c := { c with history := [] }) hd'
      intro op hop
      rw [Bool.eq_false_iff]
      intro ho
      rcases Event.concerns_of_mem_operations hop ho with ⟨_, _, h, -⟩ | ⟨t, result, -, rfl⟩
      · cases h
      · exact he t result rfl

/-- A source with an error of the assembler. -/
def faulty : LoadedFile where
  name := "main.asm"
  assemblerErrors := [{ row := 2, col := 1, message := "bad operand" }]

/-- A check is asked while the load is under way that then finds an error. It finds another one in
the same file, and the next check finds none: what the load has found stays. -/
theorem check_leaves_faulty_load : ∃ log c d news,
    replay (.ofSettings oneSource) [.request .step, .began 0 (.ok ()),
      .request (.check ["LDX"] ["./main.asm"]), .loaded 0 (.ok (.failed [faulty])),
      .checked 1 (.ok [⟨"./main.asm", false, [{ row := 4, message := "bad label" }]⟩]),
      .request (.check ["LDA"] ["main.asm"])] = some (log, c) ∧
    c.happen? (.checked 2 (.ok [⟨"main.asm", true, []⟩])) = some (d, news) ∧
    c.session.diagnostics.found .load "main.asm" = Session.fileDiagnostics faulty ∧
    (c.session.diagnostics.found .check "main.asm").length = 1 ∧
    d.session.diagnostics.found .check "main.asm" = [] ∧
    d.session.diagnostics.found .load = c.session.diagnostics.found .load ∧
    ∀ o : DiagnosticOrigin, c.session.diagnostics.found o =
      ((operationsIn log).filter (DiagnosticOperation.concerns o)).foldl
        (DiagnosticOperation.alone (Path.key none) o) fun _ => [] := by
  obtain ⟨⟨log, c⟩, hlog⟩ := Option.isSome_iff_exists.mp (show (replay (.ofSettings oneSource)
    [.request .step, .began 0 (.ok ()), .request (.check ["LDX"] ["./main.asm"]),
      .loaded 0 (.ok (.failed [faulty])),
      .checked 1 (.ok [⟨"./main.asm", false, [{ row := 4, message := "bad label" }]⟩]),
      .request (.check ["LDA"] ["main.asm"])]).isSome = true by rfl)
  have hc : c = ((replay (.ofSettings oneSource) [.request .step, .began 0 (.ok ()),
      .request (.check ["LDX"] ["./main.asm"]), .loaded 0 (.ok (.failed [faulty])),
      .checked 1 (.ok [⟨"./main.asm", false, [{ row := 4, message := "bad label" }]⟩]),
      .request (.check ["LDA"] ["main.asm"])]).get (by rfl)).2 := by
    simp only [hlog, Option.get_some]
  have hload : c.session.diagnostics.found .load "main.asm" = Session.fileDiagnostics faulty := by
    rw [hc]
    decide +kernel
  have hcheck : (c.session.diagnostics.found .check "main.asm").length = 1 := by
    rw [hc]
    decide +kernel
  have hlast : (c.happen? (.checked 2 (.ok [⟨"main.asm", true, []⟩]))).map
      (·.1.session.diagnostics.found .check "main.asm") = some [] := by
    rw [hc]
    decide +kernel
  obtain ⟨⟨d, news⟩, hd, hempty⟩ := Option.map_eq_some_iff.mp hlast
  obtain ⟨_, hruns, hevents⟩ := origins_are_kept_apart
  have hstart (o : DiagnosticOrigin) :
      (ofSettings oneSource).session.diagnostics.found o = fun _ => [] := by
    funext key
    exact DiagnosticTable.found_clear {} o key
  refine ⟨log, c, d, news, hlog, hd, hload, hcheck, hempty, ?_, ?_⟩
  · exact (hevents c d _ news hd).2 fun t result h => Event.noConfusion h
  · intro o
    rw [hruns _ log c (.of_replay hlog) o, hstart]
    rfl

end Controller
end SicDebugger
