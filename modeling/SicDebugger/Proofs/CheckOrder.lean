import SicDebugger.Proofs.Checks
import SicDebugger.Proofs.Discipline
import SicDebugger.Proofs.Halt
import SicDebugger.Proofs.Outcomes

/-!
# The order of checks

A syntax check takes no guard, so any number of them can be under way at once, and the simulator
answers them in any order. Each answer is taken when it comes. So what checks have found in a file
is what the last answer that names the file leaves: the check that was asked last is decisive only
if its answer is not overtaken.
-/

namespace SicDebugger

/-- The answer to a syntax check: the task that asked, and what is said about files. -/
structure CheckAnswer where
  task : TaskId
  files : List CheckedFile
deriving DecidableEq, Repr

namespace CheckAnswer

/-- Whether an answer names a file under a key of the project. -/
def names (root : Option String) (key : String) (a : CheckAnswer) : Bool :=
  a.files.any fun f => (DiagnosticTable.ofRoot root).key f.name == key

/-- What an answer by itself has found under a key of the project. -/
def finds (root : Option String) (key : String) (a : CheckAnswer) : List Diagnostic :=
  (Controller.applyCheck (.ofRoot root) a.files).found .check key

end CheckAnswer

namespace LogEntry

/-- The task that asks for a syntax check, where an entry of a log is the request of one. -/
def asksCheck? : LogEntry → Option TaskId
  | event found (.request (.check ..)) => some found.nextTask
  | _ => none

/-- The answer to a syntax check, where an entry of a log is one. An error is none. -/
def checkAnswer? : LogEntry → Option CheckAnswer
  | event _ (.checked t (.ok files)) => some ⟨t, files⟩
  | _ => none

end LogEntry

/-- The tasks that ask for syntax checks in a log, the latest first. -/
def checksIn (log : List LogEntry) : List TaskId := log.filterMap LogEntry.asksCheck?

/-- The answers to syntax checks in a log, the latest first. -/
def checkAnswersIn (log : List LogEntry) : List CheckAnswer := log.filterMap LogEntry.checkAnswer?

namespace Controller

variable {c d found : Controller} {e : Event} {t u : TaskId} {r : ViewRequest} {role : Role}
  {log : List LogEntry} {settings : ControllerSettings} {P : Error → Prop}
  {news : List Occurrence} {root : Option String} {key : String} {a : CheckAnswer}

/-! ## Who waits for a check -/

lemma Progress.not_check (h : Progress P t r c d) : d.tasks[t]? ≠ some ⟨role, .check⟩ := by
  intro ht
  cases h with
  | waits hw hwait =>
    cases hwait.symm.trans ht
    cases hw
  | completed _ hgone => cases hgone.symm.trans ht

/-- A request that waits for a check has asked for it. -/
lemma Sequel.of_check (h : Sequel P t r c d) (ht : d.tasks[t]? = some ⟨role, .check⟩) :
    ∃ texts names, r = .check texts names := by
  cases h with
  | progress h => exact absurd ht h.not_check
  | asks hr => exact ⟨_, _, hr⟩
  | refused _ hgone => cases hgone.symm.trans ht

/-- What a task of a request waits for fits some request, apart from a check and from the begin of a
reset, which can stand for any result. -/
lemma exists_canAwait {w : Wait} (hfits : w.fits .request = true) (hcheck : w ≠ .check)
    (hreset : ∀ outcome, w ≠ .reset outcome) : ∃ r, CanAwait (fun _ => True) r w := by
  cases w with
  | begin goal => exact ⟨.run, .begin (.inl rfl)⟩
  | load goal => exact ⟨.run, .load (.inl rfl)⟩
  | step => exact ⟨.run, .step (.inl rfl)⟩
  | refresh pending next => exact ⟨.run, .refresh (.inl rfl)⟩
  | windowRead range => exact ⟨.setWindow 0 0, .windowRead⟩
  | loopEnd loop halt =>
    cases halt with
    | pause => exact ⟨.pause, .pause⟩
    | stop => exact ⟨.stop, .stop⟩
  | check => exact absurd rfl hcheck
  | reset outcome => exact absurd rfl (hreset outcome)
  | turn | asleep | inLine => cases hfits

lemma afterCheck_tasks_self (c : Controller) (t : TaskId)
    (result : Except Error (List CheckedFile)) : (c.afterCheck t result).tasks[t]? = none := by
  cases result with
  | error err => exact Std.ExtTreeMap.getElem?_erase_self
  | ok files => exact Std.ExtTreeMap.getElem?_erase_self

/-- A task that is set to work again does not wait for a check afterwards. -/
lemma Sound.not_check (hs : Sound c) (hh : c.history = []) (hd : c.perform? e = some d)
    (hr : ∀ r, e ≠ .request r) : d.tasks[e.worker c]? ≠ some ⟨role, .check⟩ := by
  intro ht
  obtain ⟨⟨role', w⟩, hw⟩ := worker_mem hd hr
  have haccepts := accepts_of_perform hs hd hw
  -- the answer to a check ends its task
  have hcheck : w ≠ .check := by
    rintro rfl
    cases e with
    | checked t result =>
      obtain ⟨_, _, rfl⟩ := perform?_checked hd
      cases (c.afterCheck_tasks_self t result).symm.trans ht
    | request | began | loaded | stepped | read | resumed => cases haccepts
  -- only a request can wait for a check, and a task does not change its role
  obtain ⟨rfl, hfits⟩ : role = role' ∧ Wait.check.fits role = true := by
    rcases (hs.isBy hd).own _ ht with hsame | ⟨hrole, hfits⟩
    · cases hw.symm.trans hsame
      exact absurd rfl hcheck
    · replace hrole : role = c.roleOf (e.worker c) := hrole
      rw [← hrole] at hfits
      exact ⟨hrole.trans (roleOf_eq hw), hfits⟩
  obtain rfl : role = .request := by simpa [Wait.fits] using hfits
  by_cases hreset : ∃ outcome, w = .reset outcome
  · obtain ⟨outcome, rfl⟩ := hreset
    cases e with
    | began t result =>
      rcases perform?_began hd with ⟨_, _, hbegin, _⟩ | ⟨_, _, hreset, rfl⟩
      · cases hw.symm.trans hbegin
      · cases hw.symm.trans hreset
        cases conclude_request_tasks_self.symm.trans ht
    | request | loaded | stepped | read | checked | resumed => cases haccepts
  · obtain ⟨r, hawaits⟩ := exists_canAwait (hs.fits _ _ hw) hcheck fun outcome h =>
      hreset ⟨outcome, h⟩
    exact (progress_of_perform hs hh hd e.failsWith_true hw hawaits).not_check ht

/-- A task that waits for a check has asked for it in the event, or waited for it before and was not
set to work. -/
lemma Sound.check_asked (hs : Sound c) (hh : c.history = []) (hline : c.guard = none → c.line = [])
    (hd : c.perform? e = some d) (ht : d.tasks[u]? = some ⟨role, .check⟩) :
    (∃ texts names, e = .request (.check texts names) ∧ u = c.nextTask) ∨
      u ≠ e.worker c ∧ ∃ role', c.tasks[u]? = some ⟨role', .check⟩ := by
  by_cases hu : u = e.worker c
  · subst hu
    cases e with
    | request r =>
      cases hd
      obtain ⟨texts, names, rfl⟩ :=
        (sequel_of_request (P := fun _ => True) hs hh hline r).of_check ht
      exact .inl ⟨texts, names, rfl, rfl⟩
    | began | loaded | stepped | read | checked | resumed =>
      exact absurd ht (hs.not_check hh hd fun _ h => by cases h)
  · rcases (hs.isBy hd).others u hu with hkept | ⟨_, _, asked, hloop⟩
    · obtain ⟨⟨role', w⟩, hwait, rfl⟩ := hkept.wait ht
      exact .inr ⟨hu, role', hwait⟩
    · cases hloop.symm.trans ht

/-! ## Checks and their answers in a log -/

lemma filterMap_entries {β : Type} {f : LogEntry → Option β} (hf : ∀ o, f (.occurrence o) = none)
    (c : Controller) (e : Event) (news : List Occurrence) (log : List LogEntry) :
    (entries c e news ++ log).filterMap f = (f (.event c e)).toList ++ log.filterMap f := by
  have hnone : (news.reverse.map LogEntry.occurrence).filterMap f = [] := by
    rw [List.filterMap_eq_nil_iff]
    intro x hx
    obtain ⟨o, -, rfl⟩ := List.mem_map.mp hx
    exact hf o
  rw [entries, List.append_assoc, List.filterMap_append, hnone, List.nil_append,
    List.singleton_append, List.filterMap_cons]
  cases f (.event c e) <;> rfl

lemma checksIn_entries : checksIn (entries c e news ++ log) =
    (LogEntry.event c e).asksCheck?.toList ++ checksIn log :=
  filterMap_entries (fun _ => rfl) c e news log

lemma checkAnswersIn_entries : checkAnswersIn (entries c e news ++ log) =
    (LogEntry.event c e).checkAnswer?.toList ++ checkAnswersIn log :=
  filterMap_entries (fun _ => rfl) c e news log

lemma asksCheck?_eq_some : (LogEntry.event c e).asksCheck? = some t ↔
    ∃ texts names, e = .request (.check texts names) ∧ t = c.nextTask := by
  constructor
  · intro h
    unfold LogEntry.asksCheck? at h
    split at h
    · next heq =>
      cases heq
      cases h
      exact ⟨_, _, rfl, rfl⟩
    · cases h
  · rintro ⟨texts, names, rfl, rfl⟩
    rfl

lemma checkAnswer?_eq_some : (LogEntry.event c e).checkAnswer? = some a ↔
    e = .checked a.task (.ok a.files) := by
  constructor
  · intro h
    unfold LogEntry.checkAnswer? at h
    split at h
    · next heq =>
      cases heq
      cases h
      rfl
    · cases h
  · rintro rfl
    rfl

/-- The checks that a log asks for are numbered as they come. Each is answered once at most, while
its task waits for the answer. -/
structure ChecksInOrder (log : List LogEntry) (c : Controller) : Prop where
  numbered : (checksIn log).Pairwise (· > ·)
  below : ∀ t ∈ checksIn log, t < c.nextTask
  asked : ∀ a ∈ checkAnswersIn log, a.task ∈ checksIn log
  once : ((checkAnswersIn log).map (·.task)).Nodup
  waits : ∀ (t : TaskId) role, c.tasks[t]? = some ⟨role, .check⟩ →
    t ∈ checksIn log ∧ ∀ a ∈ checkAnswersIn log, a.task ≠ t

lemma ChecksInOrder.next (h : ChecksInOrder log c) (hs : Sound c)
    (hline : c.guard = none → c.line = []) (hd : c.happen? e = some (d, news)) :
    ChecksInOrder (entries c e news ++ log) d := by
  obtain ⟨d', hd', rfl, -⟩ := happen?_eq_some hd
  have hnext : c.nextTask ≤ d'.nextTask := ((hs.forget []).isBy hd').nextTask
  have hworker : e.worker c < d'.nextTask := (hs.forget []).worker_lt hd'
  -- an answer finds its task waiting
  have hwaited {a : CheckAnswer} (ha : (LogEntry.event c e).checkAnswer? = some a) :
      a.task ∈ checksIn log ∧ ∀ b ∈ checkAnswersIn log, b.task ≠ a.task := by
    obtain rfl := checkAnswer?_eq_some.mp ha
    obtain ⟨role, ht, -⟩ := perform?_checked hd'
    exact h.waits a.task role ht
  constructor
  case numbered =>
    rw [checksIn_entries, List.pairwise_append]
    refine ⟨by cases (LogEntry.event c e).asksCheck? <;> simp, h.numbered, ?_⟩
    intro t ht u hu
    obtain ⟨_, _, -, rfl⟩ := asksCheck?_eq_some.mp (Option.mem_toList.mp ht)
    exact h.below u hu
  case below =>
    intro t ht
    rw [checksIn_entries] at ht
    rcases List.mem_append.mp ht with ht | ht
    · obtain ⟨_, _, rfl, rfl⟩ := asksCheck?_eq_some.mp (Option.mem_toList.mp ht)
      exact hworker
    · exact Nat.lt_of_lt_of_le (h.below t ht) hnext
  case asked =>
    intro a ha
    rw [checkAnswersIn_entries] at ha
    rw [checksIn_entries]
    refine List.mem_append_right _ ?_
    rcases List.mem_append.mp ha with ha | ha
    · exact (hwaited (Option.mem_toList.mp ha)).1
    · exact h.asked a ha
  case once =>
    rw [checkAnswersIn_entries, List.map_append, List.nodup_append]
    refine ⟨by cases (LogEntry.event c e).checkAnswer? <;> simp, h.once, ?_⟩
    intro t ht u hu heq
    obtain ⟨a, ha, rfl⟩ := List.mem_map.mp ht
    obtain ⟨b, hb, rfl⟩ := List.mem_map.mp hu
    exact (hwaited (Option.mem_toList.mp ha)).2 b hb heq.symm
  case waits =>
    intro t role ht
    rw [checksIn_entries, checkAnswersIn_entries]
    rcases (hs.forget []).check_asked rfl hline hd' ht with
      ⟨texts, names, rfl, rfl⟩ | ⟨hne, role', hwait⟩
    · -- the number of a new check is above those that have been answered
      refine ⟨List.mem_cons_self, ?_⟩
      intro a ha heq
      exact Nat.lt_irrefl _ (heq ▸ h.below a.task (h.asked a ha))
    · obtain ⟨hasked, hopen⟩ := h.waits t role' hwait
      refine ⟨List.mem_append_right _ hasked, ?_⟩
      intro a ha heq
      rcases List.mem_append.mp ha with ha | ha
      · obtain rfl := checkAnswer?_eq_some.mp (Option.mem_toList.mp ha)
        exact hne heq.symm
      · exact hopen a ha heq

theorem Run.checksInOrder (h : Run (.ofSettings settings) log c) : ChecksInOrder log c := by
  induction h with
  | start =>
    refine ⟨.nil, ?_, ?_, .nil, ?_⟩
    · intro t ht
      cases ht
    · intro a ha
      cases ha
    · intro t role ht
      cases (Std.ExtTreeMap.getElem?_empty (a := t)).symm.trans ht
  | next hrun hd ih =>
    rw [List.append_cons]
    exact ih.next (sound_of_run hrun) (disciplined_of_run hrun).unheld hd

/-! ## What the answers leave -/

lemma names_eq (root : Option String) (key : String) (a : CheckAnswer) : a.names root key =
    ((DiagnosticTable.ofRoot root).lastUnder? CheckedFile.name a.files key).isSome := by
  rw [CheckAnswer.names, DiagnosticTable.lastUnder?, List.isSome_find?, List.any_reverse]

/-- An answer leaves under the keys that it names what it leaves by itself. -/
lemma checked_applyCheck_eq {table : DiagnosticTable}
    (hkey : table.key = (DiagnosticTable.ofRoot root).key) (a : CheckAnswer) (key : String) :
    (applyCheck table a.files).found .check key =
      if a.names root key = true then a.finds root key else table.found .check key := by
  have hlast : table.lastUnder? CheckedFile.name a.files key =
      (DiagnosticTable.ofRoot root).lastUnder? CheckedFile.name a.files key := by
    rw [DiagnosticTable.lastUnder?, hkey, DiagnosticTable.lastUnder?]
  rw [names_eq, CheckAnswer.finds, checked_applyCheck, checked_applyCheck, hlast]
  cases (DiagnosticTable.ofRoot root).lastUnder? CheckedFile.name a.files key <;> rfl

/-- What the last of the answers to checks that name a file has found in it. -/
def lastFound (root : Option String) (key : String) (answers : List CheckAnswer) :
    List Diagnostic :=
  (answers.find? (·.names root key)).elim [] (·.finds root key)

lemma lastFound_cons (root : Option String) (key : String) (a : CheckAnswer)
    (answers : List CheckAnswer) : lastFound root key (a :: answers) =
      if a.names root key = true then a.finds root key else lastFound root key answers := by
  rw [lastFound, List.find?_cons, lastFound]
  cases a.names root key <;> rfl

/-- The answers that name a file have come in the order in which the checks were asked. -/
def ComeInOrder (root : Option String) (key : String) (answers : List CheckAnswer) : Prop :=
  (answers.filter (·.names root key)).Pairwise fun later earlier => earlier.task < later.task

/-- Of the answers that name a file, one is that to the check that was asked last. -/
structure IsToLastCheck (root : Option String) (key : String) (answers : List CheckAnswer)
    (a : CheckAnswer) : Prop where
  mem : a ∈ answers
  names : a.names root key = true
  last : ∀ b ∈ answers, b.names root key = true → b.task ≤ a.task

/-- If the answers that name a file have come in order, the last of them is that to the check that
was asked last. -/
lemma ComeInOrder.lastFound_eq {answers : List CheckAnswer} (h : ComeInOrder root key answers)
    (ha : IsToLastCheck root key answers a) : lastFound root key answers = a.finds root key := by
  have hmem : a ∈ answers.filter (·.names root key) := List.mem_filter.mpr ⟨ha.mem, ha.names⟩
  have hhead : (answers.filter (·.names root key)).head? = some a := by
    unfold ComeInOrder at h
    cases hanswers : answers.filter (·.names root key) with
    | nil =>
      rw [hanswers] at hmem
      cases hmem
    | cons b rest =>
      rw [hanswers] at hmem h
      rcases List.mem_cons.mp hmem with rfl | hrest
      · rfl
      · -- an answer before the last one would be to an earlier check
        have hb : b ∈ answers ∧ b.names root key = true :=
          List.mem_filter.mp (hanswers ▸ List.mem_cons_self)
        have hlt : a.task < b.task := (List.pairwise_cons.mp h).1 a hrest
        exact absurd (ha.last b hb.1 hb.2) (Nat.not_le.mpr hlt)
  rw [lastFound, ← List.head?_filter, hhead, Option.elim_some]

/-- An event that is no answer to a check leaves what checks have found. -/
lemma found_of_no_answer (hd : c.perform? e = some d)
    (he : (LogEntry.event found e).checkAnswer? = none) :
    d.session.diagnostics.found .check = c.session.diagnostics.found .check := by
  apply found_of_perform hd
  intro op hop
  rw [Bool.eq_false_iff]
  intro hconcerns
  rcases Event.concerns_of_mem_operations hop hconcerns with ⟨t, result, -, rfl⟩ | ⟨_, _, h, -⟩
  · cases result with
    | error err => cases hop
    | ok files => cases he
  · cases h

lemma Run.key_eq (h : Run (.ofSettings settings) log c) : c.session.diagnostics.key =
    (DiagnosticTable.ofRoot settings.projectRoot).key := by
  rw [h.diagnostics, DiagnosticOperation.key_foldl]
  rfl

/-- After every run, what checks have found is what the last answers have found. -/
theorem Run.found_checked (h : Run (.ofSettings settings) log c) (key : String) :
    c.session.diagnostics.found .check key =
      lastFound settings.projectRoot key (checkAnswersIn log) := by
  induction h with
  | start => exact DiagnosticTable.found_clear {} .check key
  | @next log c d e news hrun hd ih =>
    rw [List.append_cons]
    change _ = lastFound _ _ (checkAnswersIn (entries c e news ++ log))
    obtain ⟨d', hd', rfl, rfl⟩ := happen?_eq_some hd
    rw [checkAnswersIn_entries]
    cases ha : (LogEntry.event c e).checkAnswer? with
    | none => exact (congrFun (found_of_no_answer hd' ha) key).trans ih
    | some a =>
      obtain rfl := checkAnswer?_eq_some.mp ha
      have htaken : d'.session.diagnostics = applyCheck c.session.diagnostics a.files := by
        obtain ⟨_, _, rfl⟩ := perform?_checked hd'
        rfl
      show d'.session.diagnostics.found .check key = _
      rw [htaken, checked_applyCheck_eq hrun.key_eq, ih]
      exact (lastFound_cons _ _ a _).symm

/-- What checks have found in a file is what the last answer that names the file has found. The
checks are numbered in the order in which they are asked, and each is answered once at most; so if
the answers that name a file come in this order, it is what the check that was asked last of them
has found. -/
theorem last_answer_decides_checks (h : Run (.ofSettings settings) log c) :
    (checksIn log).Pairwise (· > ·) ∧
    (∀ a ∈ checkAnswersIn log, a.task ∈ checksIn log) ∧
    ((checkAnswersIn log).map (·.task)).Nodup ∧
    (∀ key, c.session.diagnostics.found .check key =
      lastFound settings.projectRoot key (checkAnswersIn log)) ∧
    ∀ key, ComeInOrder settings.projectRoot key (checkAnswersIn log) →
      ∀ a, IsToLastCheck settings.projectRoot key (checkAnswersIn log) a →
        c.session.diagnostics.found .check key = a.finds settings.projectRoot key := by
  have horder := h.checksInOrder
  refine ⟨horder.numbered, horder.asked, horder.once, h.found_checked, ?_⟩
  intro key hinOrder a ha
  rw [h.found_checked key]
  exact hinOrder.lastFound_eq ha

/-- Two checks of a source are asked, the second one when an error has been mended. -/
def mending : List Event :=
  [.request (.check ["LDX"] ["main.asm"]), .request (.check ["LDA"] ["main.asm"])]

/-- The answer to the first check. -/
def firstAnswer : CheckAnswer := ⟨0, [mislabelled "main.asm", mislabelled "sub.asm"]⟩

/-- The answer to the second check. -/
def secondAnswer : CheckAnswer := ⟨1, [fine "./main.asm"]⟩

/-- Both checks are asked, and the answers come in order. -/
def answeredInOrder : List Event :=
  mending ++ [.checked 0 (.ok firstAnswer.files), .checked 1 (.ok secondAnswer.files)]

/-- Both checks are asked, and the second one is answered first. -/
def answeredOutOfOrder : List Event :=
  mending ++ [.checked 1 (.ok secondAnswer.files), .checked 0 (.ok firstAnswer.files)]

/-- Two answers come in order. The source that both name has been mended, and what the first answer
says of the other source is left. -/
theorem checks_answered_in_order : ∃ log c,
    replay (.ofSettings oneSource) answeredInOrder = some (log, c) ∧
    checksIn log = [1, 0] ∧ checkAnswersIn log = [secondAnswer, firstAnswer] ∧
    c.session.diagnostics.found .check "main.asm" = [] ∧
    c.session.diagnostics.found .check "sub.asm" = (mislabelled "sub.asm").findings := by
  obtain ⟨log, c, hlog, hend⟩ := exists_replay_eq (.ofSettings oneSource) answeredInOrder (by rfl)
  have hl : log = ((replay (.ofSettings oneSource) answeredInOrder).get (by rfl)).1 :=
    congrArg Prod.fst hend
  have hchecks : checksIn log = [1, 0] := by
    rw [hl]
    rfl
  have hanswers : checkAnswersIn log = [secondAnswer, firstAnswer] := by
    rw [hl]
    rfl
  obtain ⟨-, -, -, hfound, hlast⟩ := last_answer_decides_checks (.of_replay hlog)
  have hinOrder : ComeInOrder none "main.asm" (checkAnswersIn log) := by
    rw [hanswers, ComeInOrder]
    decide +kernel
  have hsecond : IsToLastCheck none "main.asm" (checkAnswersIn log) secondAnswer := by
    rw [hanswers]
    exact ⟨by decide, by decide +kernel, by decide +kernel⟩
  refine ⟨log, c, hlog, hchecks, hanswers, ?_, ?_⟩
  · rw [hlast "main.asm" hinOrder secondAnswer hsecond]
    decide +kernel
  · rw [hfound "sub.asm", hanswers]
    decide +kernel

/-- The answer to the first check comes last. The error that it has found is left, although it has
been mended: the check that was asked last has found none. -/
theorem overtaken_check_leaves_error : ∃ log c,
    replay (.ofSettings oneSource) answeredOutOfOrder = some (log, c) ∧
    checksIn log = [1, 0] ∧ checkAnswersIn log = [firstAnswer, secondAnswer] ∧
    IsToLastCheck none "main.asm" (checkAnswersIn log) secondAnswer ∧
    secondAnswer.finds none "main.asm" = [] ∧
    c.session.diagnostics.found .check "main.asm" = (mislabelled "main.asm").findings ∧
    c.session.diagnostics.found .check "main.asm" ≠ secondAnswer.finds none "main.asm" := by
  obtain ⟨log, c, hlog, hend⟩ :=
    exists_replay_eq (.ofSettings oneSource) answeredOutOfOrder (by rfl)
  have hl : log = ((replay (.ofSettings oneSource) answeredOutOfOrder).get (by rfl)).1 :=
    congrArg Prod.fst hend
  have hc : c = ((replay (.ofSettings oneSource) answeredOutOfOrder).get (by rfl)).2 :=
    congrArg Prod.snd hend
  have hanswers : checkAnswersIn log = [firstAnswer, secondAnswer] := by
    rw [hl]
    rfl
  have hsecond : IsToLastCheck none "main.asm" (checkAnswersIn log) secondAnswer := by
    rw [hanswers]
    exact ⟨by decide, by decide +kernel, by decide +kernel⟩
  have hmended : secondAnswer.finds none "main.asm" = [] := by decide +kernel
  have hleft : c.session.diagnostics.found .check "main.asm" =
      (mislabelled "main.asm").findings := by
    rw [hc]
    decide +kernel
  refine ⟨log, c, hlog, hl ▸ rfl, hanswers, hsecond, hmended, hleft, ?_⟩
  rw [hleft, hmended]
  exact List.cons_ne_nil _ _

end Controller
end SicDebugger
