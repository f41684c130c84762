import SicDebugger.Proofs.Discipline
import SicDebugger.Proofs.Origins
import SicDebugger.Proofs.Script

/-!
# Loads that fail

A load can fail at the begin, on its way, in its answer, or because the sources have errors. In
each case the session stays as it was but for what loads have found: that is replaced by what the
answer says about the sources, and kept where there is no such answer. The controller is idle again
without a loop, and takes up the next request.
-/

namespace SicDebugger

/-! ## What is found in files -/

namespace DiagnosticTable

/-- The table that has taken what a load found in files, one after the other. -/
def takeFiles (t : DiagnosticTable) (files : List LoadedFile) : DiagnosticTable :=
  files.foldl (fun t f => t.replaceOrigin f.name .load (Session.fileDiagnostics f)) t

lemma takeFiles_eq (t : DiagnosticTable) (files : List LoadedFile) :
    t.takeFiles files =
      t.replaceEach .load LoadedFile.name Session.fileDiagnostics files := rfl

lemma root_takeFiles (t : DiagnosticTable) (files : List LoadedFile) :
    (t.takeFiles files).root = t.root :=
  root_replaceEach t files

/-- What a load found in a file is of its origin already. -/
lemma map_origin_fileDiagnostics (f : LoadedFile) :
    (Session.fileDiagnostics f).map (fun d => { d with origin := .load }) =
      Session.fileDiagnostics f := by
  unfold Session.fileDiagnostics
  rw [List.map_append, List.map_map]
  cases f.linkerError <;> rfl

lemma checked_takeFiles (t : DiagnosticTable) (files : List LoadedFile) (key : String) :
    (t.takeFiles files).found .check key = t.found .check key :=
  found_replaceEach_of_ne (by decide) t files key

/-- Of the files with one key the last one counts. -/
lemma loaded_takeFiles (t : DiagnosticTable) (files : List LoadedFile) (key : String) :
    (t.takeFiles files).found .load key =
      (files.reverse.find? (t.key ·.name == key)).elim (t.found .load key)
        Session.fileDiagnostics := by
  rw [takeFiles_eq, found_replaceEach]
  simp only [map_origin_fileDiagnostics]
  rfl

end DiagnosticTable

namespace Session

/-- A session that a load without a program has left: only what loads have found can differ. -/
structure Spares (s after : Session) : Prop where
  registers_eq : after.registers = s.registers
  listings_eq : after.listings = s.listings
  watches_eq : after.watches = s.watches
  memory_eq : after.memory = s.memory
  root_eq : after.diagnostics.root = s.diagnostics.root
  checked : ∀ (key : String), after.diagnostics.found .check key = s.diagnostics.found .check key

/-- What loads have found is what the files of an answer have: under each key, the errors of the
last file with any, and nothing from before. -/
def FindsErrors (files : List LoadedFile) (after : Session) : Prop :=
  ∀ key : String, after.diagnostics.found .load key =
    ((files.filter LoadedFile.hasErrors).reverse.find?
      (after.diagnostics.key ·.name == key)).elim [] fileDiagnostics

lemma spares_applyFailed (s : Session) (files : List LoadedFile) :
    s.Spares (s.applyFailed files) where
  registers_eq := rfl
  listings_eq := rfl
  watches_eq := rfl
  memory_eq := rfl
  root_eq := DiagnosticTable.root_takeFiles _ _
  checked := by
    intro key
    show ((s.diagnostics.clearOrigin .load).takeFiles _).found .check key = _
    rw [DiagnosticTable.checked_takeFiles]
    exact DiagnosticTable.found_clearOrigin s.diagnostics .load .check key

lemma findsErrors_applyFailed (s : Session) (files : List LoadedFile) :
    FindsErrors files (s.applyFailed files) := by
  intro key
  have hkey : (s.applyFailed files).diagnostics.key = (s.diagnostics.clearOrigin .load).key := by
    funext file
    rw [DiagnosticTable.key, DiagnosticTable.key]
    exact congrArg (Path.key · file) (DiagnosticTable.root_takeFiles _ _)
  have hnone : (s.diagnostics.clearOrigin .load).found .load key = [] :=
    DiagnosticTable.found_clearOrigin s.diagnostics .load .load key
  rw [hkey, ← hnone]
  exact DiagnosticTable.loaded_takeFiles _ _ key

/-- The session that a load leaves, if it brings no program. -/
def leftBy? (s : Session) : Except Error LoadOutcome → Option Session
  | .error _ => some s
  | .ok (.failed files) => some (s.applyFailed files)
  | .ok (.loaded ..) => none

end Session

/-! ## Attempts -/

/-- What comes of the requests of a load: of the begin, and of the load itself. -/
structure LoadArrivals where
  begin : Arrival
  load : Arrival

namespace Controller

variable {c d : Controller} {t : TaskId} {r : ViewRequest} {a : LoadArrivals} {goal : LoadGoal}
  {e : Error} {result : Except Error Reply} {files : List LoadedFile} {log : List LogEntry}
  {settings : ControllerSettings}

/-- The controller after the answers that a load asks for. -/
def answerLoad? (c : Controller) (t : TaskId) (a : LoadArrivals) : Option Controller :=
  match c.tasks[t]? with
  | some ⟨_, .begin _⟩ => do
    let d ← c.advance? (.began t a.begin.began)
    match d.tasks[t]? with
    | some ⟨_, .load _⟩ => d.advance? (.loaded t a.load.loaded)
    | _ => some d
  | _ => some c

/-- The controller after a request and the answers to the load that it starts. -/
def attemptLoad? (c : Controller) (r : ViewRequest) (a : LoadArrivals) : Option Controller := do
  let d ← c.advance? (.request r)
  d.answerLoad? c.nextTask a

/-- What a load comes to. Without sources the simulator is not even asked. -/
def loadOutcome (c : Controller) (a : LoadArrivals) : Except Error LoadOutcome :=
  if c.settings.request.filePaths.isEmpty then .error .noProject
  else a.begin.began.bind fun _ => a.load.loaded

lemma loadOutcome_of_sources (hsome : ¬ c.settings.request.filePaths.isEmpty = true) :
    c.loadOutcome a = a.begin.began.bind fun _ => a.load.loaded :=
  if_neg hsome

lemma loadOutcome_of_refused (hsome : ¬ c.settings.request.filePaths.isEmpty = true)
    (hbegin : a.begin.began = .error e) : c.loadOutcome a = .error e := by
  rw [loadOutcome_of_sources hsome, hbegin]
  rfl

lemma loadOutcome_of_begun (hsome : ¬ c.settings.request.filePaths.isEmpty = true)
    (hbegin : a.begin.began = .ok ()) : c.loadOutcome a = a.load.loaded := by
  rw [loadOutcome_of_sources hsome, hbegin]
  rfl

/-- Nothing is loaded, and no task has the guard or stands in line for it. -/
structure AtIdle (c : Controller) : Prop where
  state : c.state = .idle
  free : c.guard = none
  line : c.line = []

/-- A request is taken up, and not answered that the controller is busy. -/
def Heeds (c : Controller) (r : ViewRequest) : Prop :=
  ∃ d news, c.happen? (.request r) = some (d, news) ∧
    .answered c.nextTask (.error .busy) ∉ news

/-- A load has been given up. The controller is idle again, and but for the task of the load, which
has ended, its tasks are as before. -/
structure GivesUp (c d : Controller) : Prop where
  atIdle : d.AtIdle
  tasks_eq : d.tasks = c.tasks.erase c.nextTask
  handle_eq : d.handle = c.handle
  heeds : ∀ r, r = .run ∨ r = .step → d.Heeds r

/-- A task tries to load the program, and everything else is as it was. -/
structure Tries (t : TaskId) (c d : Controller) : Prop where
  line : d.line = []
  handle_eq : d.handle = c.handle
  tasks_eq : d.tasks.erase t = c.tasks.erase t

/-- Where no task has the guard, no loop is in line for it. -/
lemma Run.atIdle (h : Run (.ofSettings settings) log c) (hs : c.state = .idle)
    (hg : c.guard = none) : c.AtIdle :=
  ⟨hs, hg, (disciplined_of_run h).unheld hg⟩

lemma AtIdle.forget (h : c.AtIdle) : AtIdle { c with history := [] } := ⟨h.state, h.free, h.line⟩

/-- A request that is taken up loads the program. -/
lemma AtIdle.request (h : c.AtIdle) (hr : r = .run ∨ r = .step) : ∃ goal,
    c.request r = (({ c with nextTask := c.nextTask + 1 } : Controller).hold c.nextTask).load
      c.nextTask goal := by
  rcases hr with rfl | rfl
  · refine ⟨.run, ?_⟩
    simp [Controller.request, run, guarded, hold, h.state, h.free]
  · refine ⟨.step, ?_⟩
    simp [Controller.request, step, guarded, hold, h.state, h.free]

lemma AtIdle.heeds (h : c.AtIdle) (hr : r = .run ∨ r = .step) : c.Heeds r := by
  obtain ⟨goal, hload⟩ := h.forget.request hr
  refine ⟨_, _, rfl, ?_⟩
  rw [hload, load]
  split
  · rw [conclude, release_of_line (by exact h.line)]
    simp [answer, note, hold]
  · simp [call, suspend, setState, publish, note, hold]

/-! ## Failing -/

lemma Tries.recall (h : Tries t c d) (past : List Occurrence) :
    Tries t c { d with history := past } :=
  ⟨h.line, h.handle_eq, h.tasks_eq⟩

lemma Tries.call {q : SimulatorRequest} {w : Wait} (h : Tries t c d) :
    Tries t c (d.call t .request q w) := by
  refine ⟨h.line, h.handle_eq, ?_⟩
  rw [← h.tasks_eq]
  apply Std.ExtTreeMap.ext_getElem?
  intro u
  by_cases hut : u = t
  · subst hut
    rw [Std.ExtTreeMap.getElem?_erase_self, Std.ExtTreeMap.getElem?_erase_self]
  · rw [getElem?_erase_of_ne hut, getElem?_erase_of_ne hut]
    exact getElem?_insert_of_ne hut

/-- A task that has tried to load the program ends in an idle controller. -/
lemma Tries.conclude (h : Tries c.nextTask c d) (hs : d.state = .idle) :
    GivesUp c (d.conclude c.nextTask .request result) := by
  have hidle : AtIdle (({ d with guard := none } : Controller).answer c.nextTask result) :=
    ⟨hs, rfl, h.line⟩
  show GivesUp c (d.release.answer c.nextTask result)
  rw [release_of_line h.line]
  exact ⟨hidle, h.tasks_eq, h.handle_eq, fun r hr => hidle.heeds hr⟩

lemma Tries.failLoad (h : Tries c.nextTask c d) : GivesUp c (d.failLoad c.nextTask e) :=
  Tries.conclude ⟨h.line, h.handle_eq, h.tasks_eq⟩ rfl

lemma Tries.afterLoad (h : Tries c.nextTask c d) :
    GivesUp c (d.afterLoad c.nextTask goal (.ok (.failed files))) := by
  have hkept : Tries c.nextTask c (d.takeErrors files) := by
    refine takeErrors_induction (P := Tries c.nextTask c) ?_ ?_
    · exact ⟨h.line, h.handle_eq, h.tasks_eq⟩
    · intro d' _ h'
      exact ⟨h'.line, h'.handle_eq, h'.tasks_eq⟩
  rw [afterLoad_failed]
  exact Tries.conclude ⟨hkept.line, hkept.handle_eq, hkept.tasks_eq⟩ rfl

lemma GivesUp.recall (h : GivesUp c d) (past : List Occurrence) :
    GivesUp c { d with history := past } := by
  have hidle : AtIdle { d with history := past } := ⟨h.atIdle.state, h.atIdle.free, h.atIdle.line⟩
  exact ⟨hidle, h.tasks_eq, h.handle_eq, fun r hr => hidle.heeds hr⟩

/-- Once a load has been given up, nothing more is asked for it. -/
lemma GivesUp.tasks_self (h : GivesUp c d) : d.tasks[c.nextTask]? = none := by
  rw [h.tasks_eq]
  exact Std.ExtTreeMap.getElem?_erase_self

lemma Tries.refused (h : Tries c.nextTask c d)
    (ht : d.tasks[c.nextTask]? = some ⟨.request, .begin goal⟩) :
    ∃ b, d.advance? (.began c.nextTask (.error e)) = some b ∧ GivesUp c b ∧
      b.session = d.session := by
  have hd : { d with history := [] }.perform? (.began c.nextTask (.error e)) =
      some ({ d with history := [] }.failLoad c.nextTask e) := by
    simp only [perform?, ht]
    rfl
  exact ⟨_, advance?_eq_some hd, (h.recall []).failLoad.recall _, conclude_session _ _ _ _⟩

lemma Tries.begun (h : Tries c.nextTask c d)
    (ht : d.tasks[c.nextTask]? = some ⟨.request, .begin goal⟩) :
    ∃ b, d.advance? (.began c.nextTask (.ok ())) = some b ∧ Tries c.nextTask c b ∧
      b.session = d.session ∧ b.tasks[c.nextTask]? = some ⟨.request, .load goal⟩ := by
  have hd : { d with history := [] }.perform? (.began c.nextTask (.ok ())) =
      some ({ d with history := [] }.call c.nextTask .request (.load d.settings.request)
        (.load goal)) := by
    simp only [perform?, ht]
    rfl
  exact ⟨_, advance?_eq_some hd, (h.recall []).call.recall _, rfl, suspend_tasks_self ..⟩

/-- A load that is answered fails with its answer. -/
lemma Tries.loaded {s : Session} {outcome : Except Error LoadOutcome} (h : Tries c.nextTask c d)
    (ht : d.tasks[c.nextTask]? = some ⟨.request, .load goal⟩)
    (hs : d.session.leftBy? outcome = some s) :
    ∃ b, d.advance? (.loaded c.nextTask outcome) = some b ∧ GivesUp c b ∧ b.session = s := by
  have hd : { d with history := [] }.perform? (.loaded c.nextTask outcome) =
      some ({ d with history := [] }.afterLoad c.nextTask goal outcome) := by
    simp only [perform?, ht]
  refine ⟨_, advance?_eq_some hd, ?_⟩
  cases outcome with
  | error e =>
    cases hs
    exact ⟨(h.recall []).failLoad.recall _, conclude_session _ _ _ _⟩
  | ok outcome =>
    cases outcome with
    | loaded registers files => cases hs
    | failed files =>
      cases hs
      refine ⟨(h.recall []).afterLoad.recall _, ?_⟩
      show (Controller.afterLoad _ c.nextTask goal _).session = _
      rw [afterLoad_failed, conclude_session]
      exact session_takeErrors _ files

/-- A load whose begin is answered fails with that answer or with the next one. -/
lemma Tries.answered {s : Session} (h : Tries c.nextTask c d)
    (ht : d.tasks[c.nextTask]? = some ⟨.request, .begin goal⟩)
    (hs : d.session.leftBy? (a.begin.began.bind fun _ => a.load.loaded) = some s) :
    ∃ b, d.answerLoad? c.nextTask a = some b ∧ GivesUp c b ∧ b.session = s := by
  simp only [answerLoad?, ht]
  cases hbegin : a.begin.began with
  | error e =>
    rw [hbegin] at hs
    cases hs
    obtain ⟨b, hb, hgone, hsession⟩ := h.refused (e := e) ht
    refine ⟨b, ?_, hgone, hsession⟩
    simp [hb, hgone.tasks_self]
  | ok =>
    rw [hbegin] at hs
    obtain ⟨b, hb, htries, hsession, hload⟩ := h.begun ht
    have hanswer : b.session.leftBy? a.load.loaded = some s := by
      rw [hsession]
      exact hs
    obtain ⟨f, hf, hgone⟩ := htries.loaded hload hanswer
    refine ⟨f, ?_, hgone⟩
    simp [hb, hload, hf]

/-! ## Attempts from idle -/

lemma AtIdle.refuses (h : c.AtIdle) (hr : r = .run ∨ r = .step)
    (hempty : c.settings.request.filePaths.isEmpty = true) :
    ∃ d, c.advance? (.request r) = some d ∧ GivesUp c d ∧ d.session = c.session := by
  obtain ⟨goal, hload⟩ := h.forget.request hr
  replace hload := hload.trans (if_pos hempty)
  have htries : Tries c.nextTask c (({ c with history := [], nextTask := c.nextTask + 1 } :
      Controller).hold c.nextTask) := ⟨h.line, rfl, rfl⟩
  exact ⟨_, advance?_eq_some (congrArg some hload), (htries.conclude h.state).recall _,
    conclude_session _ _ _ _⟩

lemma AtIdle.begins (h : c.AtIdle) (hr : r = .run ∨ r = .step)
    (hsome : ¬ c.settings.request.filePaths.isEmpty = true) :
    ∃ d goal, c.advance? (.request r) = some d ∧ Tries c.nextTask c d ∧ d.session = c.session ∧
      d.tasks[c.nextTask]? = some ⟨.request, .begin goal⟩ := by
  obtain ⟨goal, hload⟩ := h.forget.request hr
  replace hload := hload.trans (if_neg hsome)
  have htries : Tries c.nextTask c ((({ c with history := [], nextTask := c.nextTask + 1 } :
      Controller).hold c.nextTask).setState .loading) := ⟨h.line, rfl, rfl⟩
  exact ⟨_, goal, advance?_eq_some (congrArg some hload), htries.call.recall _, rfl,
    suspend_tasks_self ..⟩

lemma AtIdle.attempt {s : Session} (h : c.AtIdle) (hr : r = .run ∨ r = .step)
    (hs : c.session.leftBy? (c.loadOutcome a) = some s) :
    ∃ d, c.attemptLoad? r a = some d ∧ GivesUp c d ∧ d.session = s := by
  by_cases hempty : c.settings.request.filePaths.isEmpty = true
  · rw [loadOutcome, if_pos hempty] at hs
    cases hs
    obtain ⟨d, hd, hgone, hsession⟩ := h.refuses hr hempty
    refine ⟨d, ?_, hgone, hsession⟩
    simp [attemptLoad?, answerLoad?, hd, hgone.tasks_self]
  · rw [loadOutcome_of_sources hempty] at hs
    obtain ⟨d, goal, hd, htries, hsession, hbegin⟩ := h.begins hr hempty
    obtain ⟨f, hf, hend⟩ := htries.answered hbegin (hsession ▸ hs)
    refine ⟨f, ?_, hend⟩
    simp [attemptLoad?, hd, hf]

/-- A load that fails spares the session. From idle a run or a step that comes to an error leaves
all of it, and one that comes to errors in the sources changes only what loads have found, which is
then what the answer says. Either way the load is given up: the controller is idle again without a
loop, and the next request is not refused. -/
theorem failed_load_spares_session :
    (∀ (s : Session) (files : List LoadedFile), s.Spares (s.applyLoad (.failed files)).1 ∧
      Session.FindsErrors files (s.applyLoad (.failed files)).1) ∧
    (∀ settings log c, Run (.ofSettings settings) log c → c.state = .idle → c.guard = none →
      c.AtIdle) ∧
    ∀ (c : Controller) (r : ViewRequest) (a : LoadArrivals), c.AtIdle → r = .run ∨ r = .step →
      (∀ e, c.loadOutcome a = .error e → ∃ d, c.attemptLoad? r a = some d ∧ GivesUp c d ∧
        d.session = c.session) ∧
      ∀ files, c.loadOutcome a = .ok (.failed files) → ∃ d, c.attemptLoad? r a = some d ∧
        GivesUp c d ∧ c.session.Spares d.session ∧ Session.FindsErrors files d.session := by
  refine ⟨?_, ?_, ?_⟩
  · intro s files
    exact ⟨s.spares_applyFailed files, s.findsErrors_applyFailed files⟩
  · intro settings log c h hs hg
    exact h.atIdle hs hg
  · intro c r a h hr
    refine ⟨?_, ?_⟩
    · intro e he
      have hleft : c.session.leftBy? (c.loadOutcome a) = some c.session := by
        rw [he]
        rfl
      exact h.attempt hr hleft
    · intro files hfiles
      have hleft : c.session.leftBy? (c.loadOutcome a) = some (c.session.applyFailed files) := by
        rw [hfiles]
        rfl
      obtain ⟨d, hd, hgone, hsession⟩ := h.attempt hr hleft
      refine ⟨d, hd, hgone, ?_⟩
      rw [hsession]
      exact ⟨c.session.spares_applyFailed files, c.session.findsErrors_applyFailed files⟩

/-- The simulator cannot be reached. -/
def unreachable : LoadArrivals where
  begin := .lost "connection refused"
  load := .lost "connection refused"

/-- The linker finds an error. -/
def unlinked : LoadArrivals where
  begin := .answered 200 "\x7b\"ok\":true\x7d"
  load := .answered 200
    "\x7b\"files\":[\x7b\"fileName\":\"main.asm\",\"linkerError\":\x7b\"msg\":\"no START\"\x7d\x7d]\x7d"

/-- A breakpoint is set, a run does not reach the simulator, and a step does not link. -/
theorem breakpoint_outlives_unlinked_sources : ∃ log c d e,
    replay (.ofSettings oneSource) [.request (.toggleBreakpoint "main.asm" 3)] = some (log, c) ∧
    c.AtIdle ∧ c.attemptLoad? .run unreachable = some d ∧ d.session = c.session ∧
    c.attemptLoad? .step unlinked = some e ∧ GivesUp c e ∧ c.session.Spares e.session := by
  obtain ⟨⟨log, c⟩, hlog⟩ := Option.isSome_iff_exists.mp (show (replay (.ofSettings oneSource)
    [.request (.toggleBreakpoint "main.asm" 3)]).isSome = true by rfl)
  have hc : c = ((replay (.ofSettings oneSource)
      [.request (.toggleBreakpoint "main.asm" 3)]).get (by rfl)).2 := by
    simp only [hlog, Option.get_some]
  have hsome : ¬ c.settings.request.filePaths.isEmpty = true := by
    rw [hc]
    exact Bool.false_ne_true
  have hbegun : unlinked.begin.began = .ok () := by decide +kernel
  have hunlinked : unlinked.load.loaded =
      .ok (.failed [{ name := "main.asm", linkerError := some { msg := "no START" } }]) := by
    decide +kernel
  obtain ⟨_, hidle, hfails⟩ := failed_load_spares_session
  have hatIdle : c.AtIdle := hidle oneSource log c (Run.of_replay hlog) (hc ▸ rfl) (hc ▸ rfl)
  obtain ⟨d, hd, _, hsession⟩ := (hfails c .run unreachable hatIdle (.inl rfl)).1 _
    (loadOutcome_of_refused hsome rfl)
  obtain ⟨e, he, hgone, hspares, _⟩ :=
    (hfails c .step unlinked hatIdle (.inr rfl)).2 _
      ((loadOutcome_of_begun hsome hbegun).trans hunlinked)
  exact ⟨log, c, d, e, hlog, hatIdle, hd, hsession, he, hgone, hspares⟩

end Controller
end SicDebugger
