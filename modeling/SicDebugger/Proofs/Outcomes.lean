import SicDebugger.Proofs.Effects
import SicDebugger.Proofs.Script

/-!
# What a request comes to

A request is answered in the event that takes it up, or it waits and is set to work again by what it
waits for. Each such event either refuses it, and then nothing has moved; or lets it wait for
something that fits the request; or ends it with a result that it was made for. A loop answers
nothing.
-/

namespace SicDebugger

/-- The answer to a request, where an occurrence is one. -/
def Occurrence.answer? : Occurrence → Option (TaskId × Except Error Reply)
  | answered t result => some (t, result)
  | _ => none

/-- The errors with which the simulator fails a load or a step are of one kind. -/
def Event.FailsWith (P : Error → Prop) : Event → Prop
  | began _ (.error err) => P err
  | loaded _ (.error err) => P err
  | stepped _ (.error err) => P err
  | _ => True

lemma Event.failsWith_true (e : Event) : e.FailsWith fun _ => True := by
  cases e with
  | request | read | checked | resumed => trivial
  | began t result => cases result <;> trivial
  | loaded t result => cases result <;> trivial
  | stepped t result => cases result <;> trivial

namespace Controller

/-! ## Refusals -/

/-- The results that refuse a request. -/
inductive Denial : ViewRequest → Except Error Reply → Prop where
  | busy {r} (hr : r = .run ∨ r = .step ∨ r = .pause) : Denial r (.error .busy)
  | noProject {r} (hr : r = .run ∨ r = .step) : Denial r (.error .noProject)
  | invalidTransition {s action} : Denial .pause (.error (.invalidTransition s action))
  | invalidDelay {ms value} : Denial (.setDelay ms) (.error (.invalidDelay value))
  | invalidRange {first last a b} : Denial (.setWindow first last) (.error (.invalidRange a b))
  | check {texts names err} : Denial (.check texts names) (.error err)
  | unlisted {file} : Denial (.selectListing file) (.ok (.flag false))

/-- A task has left everything but itself as it was: the session, the state and the delay, the guard
and those in line for it, and every other task with the loop that the handle is for. -/
structure Unmoved (t : TaskId) (c d : Controller) : Prop where
  session : d.session = c.session
  state : d.state = c.state
  delay : d.delay = c.delay
  guard : d.guard = c.guard
  line : d.line = c.line
  loop : d.loop? = c.loop?
  others : ∀ u, u ≠ t → d.tasks[u]? = c.tasks[u]?

/-! ## What a request can wait for, and its results -/

/-- What a request can wait for, apart from the answer to a syntax check. Errors of the simulator
are of one kind. -/
inductive CanAwait (P : Error → Prop) : ViewRequest → Wait → Prop where
  | begin {r goal} (hr : r = .run ∨ r = .step) : CanAwait P r (.begin goal)
  | load {r goal} (hr : r = .run ∨ r = .step) : CanAwait P r (.load goal)
  | step {r} (hr : r = .run ∨ r = .step) : CanAwait P r .step
  | refresh {r pending next} (hr : r = .run ∨ r = .step) : CanAwait P r (.refresh pending next)
  | reset {r} : CanAwait P r (.reset (.ok .done))
  | resetFailed {r err} (hr : r = .run ∨ r = .step) (herr : P err) :
      CanAwait P r (.reset (.error err))
  | windowRead {first last range} : CanAwait P (.setWindow first last) (.windowRead range)
  | pause {loop} : CanAwait P .pause (.loopEnd loop .pause)
  | stop {loop} : CanAwait P .stop (.loopEnd loop .stop)

/-- The results of a request that was not refused, or that is a stop. -/
inductive Completion (P : Error → Prop) (c : Controller) : ViewRequest → Except Error Reply → Prop
    where
  | done {r} : Completion P c r (.ok .done)
  | toggled {file row sets} : Completion P c (.toggleBreakpoint file row) (.ok (.flag sets))
  | selected {file} : Completion P c (.selectListing file) (.ok (.flag true))
  | picture : Completion P c .queryState (.ok (.picture c.picture))
  | failed {r err} (hr : r = .run ∨ r = .step) (herr : P err) : Completion P c r (.error err)
  | overtaken : Completion P c .stop (.error .busy)

/-- What has been answered, the latest first. -/
def answers (c : Controller) : List (TaskId × Except Error Reply) :=
  c.history.filterMap Occurrence.answer?

/-- A request has gone on: it waits, or it has ended. -/
inductive Progress (P : Error → Prop) (t : TaskId) (r : ViewRequest) (c d : Controller) : Prop where
  | waits {w} (hw : CanAwait P r w) (ht : d.tasks[t]? = some ⟨.request, w⟩) (ha : d.answers = [])
  | completed {result} (hc : Completion P c r result) (ht : d.tasks[t]? = none)
      (ha : d.answers = [(t, result)])

/-- What becomes of a request that is taken up, or whose syntax check is answered. -/
inductive Sequel (P : Error → Prop) (t : TaskId) (r : ViewRequest) (c d : Controller) : Prop where
  | progress (h : Progress P t r c d)
  | asks {texts names} (hr : r = .check texts names) (ht : d.tasks[t]? = some ⟨.request, .check⟩)
      (hm : Unmoved t c d) (hh : d.history = [.sent t 0 (.check texts names)])
  | refused {result} (hd : Denial r result) (ht : d.tasks[t]? = none) (hm : Unmoved t c d)
      (hh : d.history = [.answered t result])

/-! ## Nothing has moved -/

section

variable {P : Error → Prop} {c d : Controller} {t u l : TaskId} {r : ViewRequest} {e : Event}
  {result : Except Error Reply}

/-- The loop that the handle is for depends on the entry of the loop alone. -/
lemma loop?_congr (hh : d.handle = c.handle)
    (ht : ∀ l, c.handle = some l → d.tasks[l]? = c.tasks[l]?) : d.loop? = c.loop? := by
  rw [loop?, loop?, hh]
  cases hc : c.handle with
  | none => rfl
  | some l =>
    rw [Option.filter_some, Option.filter_some, Std.ExtTreeMap.contains_eq_isSome_getElem?,
      Std.ExtTreeMap.contains_eq_isSome_getElem?, ht l hc]

lemma loop?_of_handle (h : c.handle = none) : c.loop? = none := by
  rw [loop?, h]
  rfl

/-- To end a task that has not the handle moves nothing else. -/
lemma unmoved_answer (ht : c.handle ≠ some t) (n : TaskId) :
    Unmoved t c ({ c with nextTask := n }.answer t result) where
  session := rfl
  state := rfl
  delay := rfl
  guard := rfl
  line := rfl
  loop := loop?_congr rfl fun _ hl => getElem?_erase_of_ne fun e => ht (e ▸ hl)
  others _ hu := getElem?_erase_of_ne hu

/-- To let a task wait for an answer moves nothing else. -/
lemma unmoved_call {role : Role} {s : SimulatorRequest} {w : Wait} (ht : c.handle ≠ some t)
    (n : TaskId) : Unmoved t c ({ c with nextTask := n }.call t role s w) where
  session := rfl
  state := rfl
  delay := rfl
  guard := rfl
  line := rfl
  loop := loop?_congr rfl fun _ hl => getElem?_insert_of_ne fun e => ht (e ▸ hl)
  others _ hu := getElem?_insert_of_ne hu

/-- To take the handle away from a loop that has ended moves nothing. -/
lemma unmoved_answer_handle (hl : c.loop? = none) (n : TaskId) :
    Unmoved t c ({ c with nextTask := n, handle := none }.answer t result) where
  session := rfl
  state := rfl
  delay := rfl
  guard := rfl
  line := rfl
  loop := (loop?_of_handle rfl).trans hl.symm
  others _ hu := getElem?_erase_of_ne hu

lemma Sound.handle_ne_nextTask (hs : Sound c) : c.handle ≠ some c.nextTask :=
  fun h => Nat.lt_irrefl _ (hs.handle _ h).1

lemma Sound.handle_ne_request {w : Wait} (hs : Sound c) (ht : c.tasks[t]? = some ⟨.request, w⟩) :
    c.handle ≠ some t :=
  fun h => (hs.handle _ h).2 _ ht rfl

/-! ## Answers -/

lemma answers_of_history (h : c.history = []) : c.answers = [] := by
  rw [answers, h]
  rfl

variable {role : Role} {w : Wait}

@[simp] lemma answers_release : c.release.answers = c.answers := by
  unfold release
  split <;> rfl

@[simp] lemma answers_askHalt (halt : Halt) : (c.askHalt l halt).answers = c.answers := by
  rcases askHalt_history c l halt with h | h
  · rw [answers, h, answers]
  · rw [answers, h, answers]
    rfl

@[simp] lemma answers_conclude_request :
    (c.conclude t .request result).answers = (t, result) :: c.answers :=
  congrArg ((t, result) :: ·) answers_release

@[simp] lemma answers_refresh (next : AfterRefresh) :
    (c.refresh t role next).answers = c.answers := by
  rw [refresh_eq]
  exact sendReads_induction (P := fun d => d.answers = c.answers) rfl fun _ _ _ hd => hd

@[simp] lemma answers_takeStep (next : RegisterSnapshot) : (c.takeStep next).answers = c.answers :=
  takeStep_induction (P := fun d => d.answers = c.answers) rfl fun _ _ hd => hd

@[simp] lemma answers_takeErrors (files : List LoadedFile) :
    (c.takeErrors files).answers = c.answers :=
  takeErrors_induction (P := fun d => d.answers = c.answers) rfl fun _ _ hd => hd

/-! ## Ends -/

lemma conclude_request_tasks_self :
    (c.conclude t .request result).tasks[t]? = none :=
  Std.ExtTreeMap.getElem?_erase_self

lemma reset_tasks_self : (c.reset t role result).tasks[t]? = some ⟨role, .reset result⟩ :=
  Std.ExtTreeMap.getElem?_insert_self

lemma refresh_tasks_self (next : AfterRefresh) : (c.refresh t role next).tasks[t]? =
    some ⟨role, .refresh (pendingReads (refreshTargets c.session)) next⟩ :=
  Std.ExtTreeMap.getElem?_insert_self

/-- The guard that is taken and given back at once is free again. -/
lemma release_hold (hg : c.guard = none) (hl : c.line = []) : (c.hold t).release = c := by
  obtain ⟨settings, session, state, delay, guard, line, handle, tasks, nextTask, history⟩ := c
  cases hg
  cases hl
  rfl

/-- A request that ends with the guard it has only just taken ends as without it. -/
lemma conclude_hold (hg : c.guard = none) (hl : c.line = []) :
    (c.hold t).conclude t .request result = c.answer t result :=
  congrArg (·.answer t result) (release_hold hg hl)

lemma Progress.answer (ha : d.answers = []) (hc : Completion P c r result) :
    Progress P t r c (d.answer t result) :=
  .completed hc Std.ExtTreeMap.getElem?_erase_self (congrArg (List.cons (t, result)) ha)

lemma Progress.conclude (ha : d.answers = []) (hc : Completion P c r result) :
    Progress P t r c (d.conclude t .request result) :=
  .completed hc conclude_request_tasks_self
    (answers_conclude_request.trans (congrArg (List.cons (t, result)) ha))

/-! ## Requests that are taken up -/

lemma ofMs_eq_error {ms : Binary64} {err : Error} (h : StepDelay.ofMs ms = .error err) :
    err = .invalidDelay ms := by
  unfold StepDelay.ofMs at h
  split at h
  · cases h
  · cases h
    rfl

lemma between_eq_error {first last : UInt32} {err : Error}
    (h : AddressRange.between first last = .error err) : err = .invalidRange first last := by
  unfold AddressRange.between at h
  split at h
  · cases h
  · cases h
    rfl

/-- The controller that has taken up a request. -/
def takeUp (c : Controller) : Controller := { c with nextTask := c.nextTask + 1 }

section

variable (hs : Sound c) (hh : c.history = [])
include hs hh

lemma Sequel.deny (hd : Denial r result) :
    Sequel P c.nextTask r c (c.takeUp.answer c.nextTask result) :=
  .refused hd Std.ExtTreeMap.getElem?_erase_self (unmoved_answer hs.handle_ne_nextTask _)
    (congrArg (List.cons (Occurrence.answered c.nextTask result)) hh)

/-- A request that finds the guard taken is refused. -/
lemma Sequel.guarded {go : Controller → Controller} (hr : r = .run ∨ r = .step)
    (h : c.guard = none → Sequel P c.nextTask r c (go (c.takeUp.hold c.nextTask))) :
    Sequel P c.nextTask r c (c.takeUp.guarded c.nextTask go) := by
  unfold Controller.guarded
  cases hg : c.takeUp.guard with
  | some holder => exact .deny hs hh (.busy (hr.imp_right .inl))
  | none => exact h hg

/-- A request that is refused once it has the guard gives it back. -/
lemma Sequel.denyHolding (hg : c.guard = none) (hl : c.line = []) (hd : Denial r result) :
    Sequel P c.nextTask r c
      ((c.takeUp.hold c.nextTask).conclude c.nextTask .request result) := by
  rw [conclude_hold (c := c.takeUp) hg hl]
  exact .deny hs hh hd

lemma Sequel.load {goal : LoadGoal} (hr : r = .run ∨ r = .step) (hg : c.guard = none)
    (hl : c.line = []) :
    Sequel P c.nextTask r c ((c.takeUp.hold c.nextTask).load c.nextTask goal) := by
  unfold Controller.load
  split
  · exact .denyHolding hs hh hg hl (.noProject hr)
  · have ha : c.answers = [] := answers_of_history hh
    exact .progress (.waits (.begin hr) (suspend_tasks_self _ _ _ _) ha)

lemma Sequel.run (hline : c.guard = none → c.line = []) :
    Sequel P c.nextTask .run c (c.takeUp.run c.nextTask) := by
  have ha : c.answers = [] := answers_of_history hh
  refine .guarded hs hh (.inl rfl) fun hg => ?_
  split
  · exact .denyHolding hs hh hg (hline hg) (.busy (.inl rfl))
  · exact .denyHolding hs hh hg (hline hg) (.busy (.inl rfl))
  · exact .load hs hh (.inl rfl) hg (hline hg)
  · exact .load hs hh (.inl rfl) hg (hline hg)
  · exact .progress (.conclude ha .done)
  · exact .progress (.conclude ha .done)

lemma Sequel.step (hline : c.guard = none → c.line = []) :
    Sequel P c.nextTask .step c (c.takeUp.step c.nextTask) := by
  have ha : c.answers = [] := answers_of_history hh
  have hsent : Sequel P c.nextTask .step c
      (((c.takeUp.hold c.nextTask).setState .running).sendStep c.nextTask .request) :=
    .progress (.waits (.step (.inr rfl)) (suspend_tasks_self _ _ _ _) ha)
  refine .guarded hs hh (.inr rfl) fun hg => ?_
  split
  · exact .denyHolding hs hh hg (hline hg) (.busy (.inr (.inl rfl)))
  · exact .denyHolding hs hh hg (hline hg) (.busy (.inr (.inl rfl)))
  · exact .load hs hh (.inr rfl) hg (hline hg)
  · exact .load hs hh (.inr rfl) hg (hline hg)
  · exact hsent
  · exact hsent

omit hs in
/-- A halt waits for the end of the loop that the handle is for. -/
lemma Sequel.haltLoop {halt : Halt} {otherwise : Controller → Controller}
    (hw : ∀ l, CanAwait P r (.loopEnd l halt))
    (h : c.loop? = none → Sequel P c.nextTask r c (otherwise { c.takeUp with handle := none })) :
    Sequel P c.nextTask r c (c.takeUp.haltLoop c.nextTask halt otherwise) := by
  unfold Controller.haltLoop
  cases hl : c.takeUp.handle with
  | none => exact h (loop?_of_handle hl)
  | some l =>
    have hhandle : c.handle = some l := hl
    dsimp only
    split
    · refine .progress (.waits (hw l) (suspend_tasks_self _ _ _ _) ?_)
      exact (answers_askHalt halt).trans (answers_of_history hh)
    · next hgone =>
      refine h ?_
      rw [loop?, hhandle]
      exact (Option.filter_some_neg (Bool.eq_false_iff.mpr hgone))

omit hs in
lemma Sequel.pause : Sequel P c.nextTask .pause c (c.takeUp.pause c.nextTask) := by
  have hdeny (hl : c.loop? = none) {result} (hd : Denial .pause result) :
      Sequel P c.nextTask .pause c
        (({ c.takeUp with handle := none } : Controller).answer c.nextTask result) :=
    .refused hd Std.ExtTreeMap.getElem?_erase_self (unmoved_answer_handle hl _)
      (congrArg (List.cons (Occurrence.answered c.nextTask result)) hh)
  refine .haltLoop hh (fun _ => .pause) fun hl => ?_
  dsimp only
  split
  · exact .progress (.answer (answers_of_history hh) .done)
  · exact .progress (.answer (answers_of_history hh) .done)
  · exact hdeny hl (.busy (.inr (.inr rfl)))
  · exact hdeny hl (.busy (.inr (.inr rfl)))
  · exact hdeny hl .invalidTransition

omit hs hh in
/-- A stop that finds the guard taken ends there, and resets otherwise. -/
lemma Progress.stopNow (ha : d.answers = []) : Progress P t .stop c (d.stopNow t) := by
  unfold Controller.stopNow Controller.guarded
  cases hg : d.guard with
  | some holder => exact .answer ha .overtaken
  | none => exact .waits .reset reset_tasks_self ha

omit hs in
lemma Sequel.stop : Sequel P c.nextTask .stop c (c.takeUp.stop c.nextTask) :=
  .haltLoop hh (fun _ => .stop) fun _ => .progress (.stopNow (answers_of_history hh))

lemma Sequel.selectListing {file : String} :
    Sequel P c.nextTask (.selectListing file) c (c.takeUp.selectListing c.nextTask file) := by
  have ha : c.answers = [] := answers_of_history hh
  unfold Controller.selectListing
  split
  · exact .progress (.answer ha .selected)
  · exact .deny hs hh .unlisted

lemma Sequel.setDelay {ms : Binary64} :
    Sequel P c.nextTask (.setDelay ms) c (c.takeUp.setDelay c.nextTask ms) := by
  unfold Controller.setDelay
  split
  · exact .progress (.answer (answers_of_history hh) .done)
  · next err herr => exact .deny hs hh (ofMs_eq_error herr ▸ .invalidDelay)

lemma Sequel.setWindow {first last : UInt32} :
    Sequel P c.nextTask (.setWindow first last) c
      (c.takeUp.setWindow c.nextTask first last) := by
  have ha : c.answers = [] := answers_of_history hh
  unfold Controller.setWindow
  split
  · next err herr => exact .deny hs hh (between_eq_error herr ▸ .invalidRange)
  · dsimp only
    split
    · exact .progress (.waits .windowRead (suspend_tasks_self _ _ _ _) ha)
    · exact .progress (.answer ha .done)

lemma Sequel.check {texts names : List String} :
    Sequel P c.nextTask (.check texts names) c (c.takeUp.check c.nextTask texts names) := by
  unfold Controller.check
  split
  · exact .deny hs hh .check
  · exact .asks rfl (suspend_tasks_self _ _ _ _) (unmoved_call hs.handle_ne_nextTask _)
      (congrArg (List.cons (Occurrence.sent c.nextTask 0 (.check texts names))) hh)

/-- What becomes of a request in the event that takes it up. -/
theorem sequel_of_request (hline : c.guard = none → c.line = []) (r : ViewRequest) :
    Sequel P c.nextTask r c (c.request r) := by
  have ha : c.answers = [] := answers_of_history hh
  cases r with
  | run => exact .run hs hh hline
  | step => exact .step hs hh hline
  | pause => exact .pause hh
  | stop => exact .stop hh
  | toggleBreakpoint file row => exact .progress (.answer ha .toggled)
  | selectListing file => exact .selectListing hs hh
  | setDelay ms => exact .setDelay hs hh
  | setWindow first last => exact .setWindow hs hh
  | check texts names => exact .check hs hh
  | queryState => exact .progress (.answer ha .picture)

end

/-! ## Requests that are set to work again -/

section

variable {pending : List PendingRead} {next : AfterRefresh} {goal : LoadGoal}

lemma Progress.failLoad {err : Error} (ha : c.answers = []) (hr : r = .run ∨ r = .step)
    (herr : P err) : Progress P t r c (c.failLoad t err) :=
  .conclude ha (.failed hr herr)

lemma Progress.afterBegin {result : Except Error Unit} (ha : c.answers = [])
    (hr : r = .run ∨ r = .step) (hP : (Event.began t result).FailsWith P) :
    Progress P t r c (c.afterBegin t goal result) := by
  cases result with
  | error err => exact .failLoad ha hr hP
  | ok => exact .waits (.load hr) (suspend_tasks_self _ _ _ _) ha

lemma Progress.afterReset {outcome : Except Error Reply} (ha : c.answers = [])
    (hw : CanAwait P r (.reset outcome)) : Progress P t r c (c.afterReset t .request outcome) := by
  cases hw with
  | reset => exact .conclude ha .done
  | resetFailed hr herr => exact .conclude ha (.failed hr herr)

lemma Progress.afterLoad {result : Except Error LoadOutcome} (ha : c.answers = [])
    (hr : r = .run ∨ r = .step) (hP : (Event.loaded t result).FailsWith P) :
    Progress P t r c (c.afterLoad t goal result) := by
  cases result with
  | error err => exact .failLoad ha hr hP
  | ok outcome =>
    cases outcome with
    | loaded registers files =>
      exact .waits (.refresh hr) (refresh_tasks_self _)
        ((answers_refresh _).trans ha)
    | failed files =>
      rw [afterLoad_failed]
      exact .conclude ((answers_takeErrors files).trans ha) .done

lemma Progress.afterStep {result : Except Error RegisterSnapshot} (ha : c.answers = [])
    (hr : r = .run ∨ r = .step) (hP : (Event.stepped t result).FailsWith P) :
    Progress P t r c (c.afterStep t .request result) := by
  cases result with
  | error err => exact .waits (.resetFailed hr hP) reset_tasks_self ha
  | ok next =>
    have htaken : (c.takeStep next).answers = [] := (answers_takeStep next).trans ha
    rw [afterStep_ok]
    split
    · exact .waits .reset reset_tasks_self htaken
    · exact .waits (.refresh hr) (refresh_tasks_self _)
        ((answers_refresh _).trans htaken)

lemma Progress.afterRefresh (ha : d.answers = []) :
    Progress P t r c (d.afterRefresh t .request next) := by
  cases next with
  | load goal =>
    cases goal with
    | run => exact .conclude ha .done
    | step => exact .conclude ha .done
  | step verdict => exact .conclude ha .done

lemma Progress.afterRead {slot : Nat} {result : Except Error (List UInt8)} (ha : c.answers = [])
    (hr : r = .run ∨ r = .step) (hslot : slot ∈ pending.map (·.slot)) :
    Progress P t r c (c.afterRead t .request pending next slot result) := by
  obtain ⟨p, hp⟩ := find?_slot_eq_some hslot
  unfold Controller.afterRead
  rw [hp]
  dsimp only
  split
  · exact .afterRefresh ha
  · exact .waits (.refresh hr) (suspend_tasks_self _ _ _ _) ha

lemma Progress.afterWindow {range : AddressRange} {result : Except Error (List UInt8)}
    (ha : c.answers = []) : Progress P t r c (c.afterWindow t range result) := by
  have hread : ((c.withSession (storeRead · (.window range) result)).release.publishOf
      ViewMessage.ofMemory).answers = [] := answers_release.trans ha
  exact .answer hread .done

lemma Sequel.afterCheck {texts names : List String} {result : Except Error (List CheckedFile)}
    (hs : Sound c) (hh : c.history = []) (ht : c.tasks[t]? = some ⟨.request, w⟩) :
    Sequel P t (.check texts names) c (c.afterCheck t result) := by
  cases result with
  | error err =>
    exact .refused .check Std.ExtTreeMap.getElem?_erase_self
      (unmoved_answer (hs.handle_ne_request ht) c.nextTask)
      (congrArg (List.cons (Occurrence.answered t (.error err))) hh)
  | ok files =>
    have ha : c.answers = [] := answers_of_history hh
    exact .progress (.answer ha .done)

/-- What becomes of a request that an event sets to work again. -/
theorem progress_of_perform (hs : Sound c) (hh : c.history = []) (hd : c.perform? e = some d)
    (hP : e.FailsWith P) (ht : c.tasks[e.worker c]? = some ⟨.request, w⟩) (hw : CanAwait P r w) :
    Progress P (e.worker c) r c d := by
  have ha : c.answers = [] := answers_of_history hh
  -- what the event finds the task waiting for is what it waits for
  have hsame {task : Task} (h : c.tasks[e.worker c]? = some task) : task = ⟨.request, w⟩ :=
    Option.some.inj (h.symm.trans ht)
  cases e with
  | request s =>
    rw [Event.worker, hs.nextTask_free] at ht
    cases ht
  | resumed u =>
    obtain ⟨task, htask, hd⟩ := perform?_resumed hd
    rcases resume?_eq_some hd with ⟨_, rfl, rfl⟩ | ⟨_, rfl, rfl⟩ | ⟨_, rfl, _, rfl⟩ |
      ⟨role, loop, halt, rfl, _, rfl⟩
    · cases hsame htask
    · cases hsame htask
    · cases hsame htask
    · cases hsame htask
      cases hw with
      | pause => exact .answer ha .done
      | stop => exact .stopNow ha
  | began u result =>
    rcases perform?_began hd with ⟨role, goal, htask, rfl⟩ | ⟨role, outcome, htask, rfl⟩
    · cases hsame htask
      cases hw with
      | begin hr => exact .afterBegin ha hr hP
    · cases hsame htask
      exact .afterReset ha hw
  | loaded u result =>
    obtain ⟨role, goal, htask, rfl⟩ := perform?_loaded hd
    cases hsame htask
    cases hw with
    | load hr => exact .afterLoad ha hr hP
  | stepped u result =>
    obtain ⟨role, htask, rfl⟩ := perform?_stepped hd
    cases hsame htask
    cases hw with
    | step hr => exact .afterStep ha hr hP
  | read u slot result =>
    rcases perform?_read hd with ⟨role, pending, next, htask, hslot, rfl⟩ |
      ⟨role, range, htask, rfl, rfl⟩
    · cases hsame htask
      cases hw with
      | refresh hr => exact .afterRead ha hr hslot
    · exact .afterWindow ha
  | checked u result =>
    obtain ⟨role, htask, rfl⟩ := perform?_checked hd
    cases hsame htask
    cases hw

/-- What becomes of a syntax check that an event sets to work again. -/
theorem sequel_of_checked {texts names : List String} (hs : Sound c) (hh : c.history = [])
    (hd : c.perform? e = some d) (ht : c.tasks[e.worker c]? = some ⟨.request, .check⟩) :
    Sequel P (e.worker c) (.check texts names) c d := by
  have haccepts := accepts_of_perform hs hd ht
  cases e with
  | checked u result =>
    obtain ⟨role, -, rfl⟩ := perform?_checked hd
    exact .afterCheck hs hh ht
  | request | began | loaded | stepped | read | resumed => cases haccepts

end

/-! ## Requests that wait -/

/-- A request goes on waiting while others are at work. -/
lemma Sound.request_stays {w : Wait} (hs : Sound c) (hd : c.perform? e = some d)
    (ht : c.tasks[t]? = some ⟨.request, w⟩) (hne : e.worker c ≠ t) :
    d.tasks[t]? = some ⟨.request, w⟩ := by
  rcases (hs.isBy hd).others t (Ne.symm hne) with (hk | ⟨_, _, _, hk, _⟩) | ⟨hlow, _, _⟩
  · exact hk.trans ht
  · cases hk.symm.trans ht
  · exact absurd hlow (Nat.not_le.mpr (hs.fresh t _ ht))

end

end Controller
end SicDebugger
