import SicDebugger.Proofs.Activities
import SicDebugger.Proofs.Section

/-!
# What comes of an event

An event sets one task to work. That task alone asks the simulator and comes to an end, and its
entry is the only one that changes, apart from a loop that is asked to halt and a loop that is made.
What it can ask depends on the event and on the controller that the event finds.
-/

namespace SicDebugger

namespace Event

/-- The task that an event sets to work. A request is taken up as the next task. -/
def worker (c : Controller) : Event → TaskId
  | request _ => c.nextTask
  | began t _ => t
  | loaded t _ => t
  | stepped t _ => t
  | read t _ _ => t
  | checked t _ => t
  | resumed t => t

end Event

namespace Wait

/-- Whether a task of a role can wait so. A loop loads nothing, asks no other loop to halt and moves
no memory window, and a request has no turns. -/
def fits (role : Role) : Wait → Bool
  | .step => true
  | .reset _ => true
  | .refresh _ (.step _) => true
  | .turn => role != .request
  | .asleep => role != .request
  | .inLine => role != .request
  | _ => role == .request

/-- Whether an event is what a task that waits so waits for. -/
def accepts : Wait → Event → Bool
  | .begin _, .began .. => true
  | .reset _, .began .. => true
  | .load _, .loaded .. => true
  | .step, .stepped .. => true
  | .refresh .., .read .. => true
  | .windowRead _, .read .. => true
  | .check, .checked .. => true
  | .loopEnd .., .resumed _ => true
  | .turn, .resumed _ => true
  | .asleep, .resumed _ => true
  | .inLine, .resumed _ => true
  | _, _ => false

end Wait

namespace Controller

/-! ## Sound tasks -/

/-- The tasks are sound: their numbers are used up, each waits as its role can, and the handle is
that of a loop. -/
structure Sound (c : Controller) : Prop where
  fresh : ∀ u task, c.tasks[u]? = some task → u < c.nextTask
  fits : ∀ (u : TaskId) (task : Task), c.tasks[u]? = some task → task.wait.fits task.role = true
  handle : ∀ l, c.handle = some l → l < c.nextTask ∧
    ∀ task : Task, c.tasks[l]? = some task → task.role ≠ .request

lemma Sound.forget {c : Controller} (hs : Sound c) (h : List Occurrence) :
    Sound { c with history := h } := ⟨hs.fresh, hs.fits, hs.handle⟩

/-- The role of a task. One that is only just taken up works for a request. -/
def roleOf (c : Controller) (t : TaskId) : Role := c.tasks[t]?.elim .request Task.role

/-! ## The work of a task -/

/-- The entry of a task that is not at work stays, unless it is a loop that is asked to halt. -/
def Kept (before after : Option Task) : Prop :=
  after = before ∨ ∃ asked halt wait, before = some ⟨.loop asked, wait⟩ ∧
    after = some ⟨.loop (some (Halt.strengthen asked halt)), wait⟩

lemma strengthen_strengthen (asked : Option Halt) (first second : Halt) :
    ∃ halt, Halt.strengthen (some (Halt.strengthen asked first)) second =
      Halt.strengthen asked halt := by
  cases asked with
  | none => exact ⟨_, rfl⟩
  | some halt =>
    cases halt with
    | pause => exact ⟨_, rfl⟩
    | stop => exact ⟨second, rfl⟩

lemma Kept.trans {before between after : Option Task} (h : Kept before between)
    (h' : Kept between after) : Kept before after := by
  rcases h with rfl | ⟨asked, first, wait, rfl, rfl⟩
  · exact h'
  · rcases h' with rfl | ⟨asked', second, wait', he, rfl⟩
    · exact .inr ⟨asked, first, wait, rfl, rfl⟩
    · -- two requests to halt come to one, since a request only strengthens the one before
      cases he
      obtain ⟨halt, hhalt⟩ := strengthen_strengthen asked first second
      exact .inr ⟨asked, halt, wait, rfl, by rw [hhalt]⟩

/-- What a task waits for that is not at work stays. -/
lemma Kept.wait {before after : Option Task} {task : Task} (h : Kept before after)
    (ht : after = some task) : ∃ task', before = some task' ∧ task'.wait = task.wait := by
  rcases h with rfl | ⟨asked, halt, wait, rfl, rfl⟩
  · exact ⟨task, ht, rfl⟩
  · rw [Option.some.injEq] at ht
    subst ht
    exact ⟨_, rfl, rfl⟩

/-- A loop that waits for its first turn. -/
def IsNewLoop (entry : Option Task) : Prop := ∃ asked, entry = some ⟨.loop asked, .turn⟩

lemma IsNewLoop.kept {before after : Option Task} (h : IsNewLoop before) (hk : Kept before after) :
    IsNewLoop after := by
  obtain ⟨asked, rfl⟩ := h
  rcases hk with rfl | ⟨_, _, _, he, rfl⟩
  · exact ⟨asked, rfl⟩
  · cases he
    exact ⟨_, rfl⟩

/-- A task has been at work in its role from one controller to another, with news of one kind. -/
structure Work (t : TaskId) (role : Role) (P : Occurrence → Prop) (c d : Controller) : Prop where
  news : ∃ news, d.history = news ++ c.history ∧ ∀ o ∈ news, P o
  nextTask : c.nextTask ≤ d.nextTask
  others : ∀ u, u ≠ t → Kept c.tasks[u]? d.tasks[u]? ∨
    c.nextTask ≤ u ∧ u < d.nextTask ∧ IsNewLoop d.tasks[u]?
  own : ∀ task, d.tasks[t]? = some task →
    c.tasks[t]? = some task ∨ task.role = role ∧ task.wait.fits role = true
  handle : ∀ l, d.handle = some l →
    c.handle = some l ∨ c.nextTask ≤ l ∧ l < d.nextTask ∧ l ≠ t

/-- Everything of this kind is allowed to come of the work of a task, apart from calls. -/
structure Harmless (t : TaskId) (P : Occurrence → Prop) : Prop where
  published : ∀ m, P (.published m)
  slept : ∀ delay, P (.slept t delay)
  ready : ∀ u, P (.ready u)
  answered : ∀ result, P (.answered t result)

variable {t : TaskId} {P : Occurrence → Prop} {c d e : Controller} {role role' : Role}

lemma Work.trans (h : Work t role P c d) (h' : Work t role P d e) : Work t role P c e where
  news := by
    obtain ⟨first, hfirst, hp⟩ := h.news
    obtain ⟨second, hsecond, hp'⟩ := h'.news
    refine ⟨second ++ first, by rw [hsecond, hfirst, List.append_assoc], fun o ho => ?_⟩
    rcases List.mem_append.mp ho with ho | ho
    · exact hp' o ho
    · exact hp o ho
  nextTask := Nat.le_trans h.nextTask h'.nextTask
  others u hut := by
    rcases h.others u hut with hk | ⟨hlow, hhigh, hnew⟩
    · rcases h'.others u hut with hk' | ⟨hlow', hhigh', hnew'⟩
      · exact .inl (hk.trans hk')
      · exact .inr ⟨Nat.le_trans h.nextTask hlow', hhigh', hnew'⟩
    · -- a loop that the first part has made can be asked to halt in the second
      rcases h'.others u hut with hk' | ⟨_, hhigh', hnew'⟩
      · exact .inr ⟨hlow, Nat.lt_of_lt_of_le hhigh h'.nextTask, hnew.kept hk'⟩
      · exact .inr ⟨hlow, hhigh', hnew'⟩
  own task htask := by
    rcases h'.own task htask with hmid | hr
    · exact h.own task hmid
    · exact .inr hr
  handle l hl := by
    rcases h'.handle l hl with hmid | ⟨hlow, hhigh, hne⟩
    · rcases h.handle l hmid with hl | ⟨hlow, hhigh, hne⟩
      · exact .inl hl
      · exact .inr ⟨hlow, Nat.lt_of_lt_of_le hhigh h'.nextTask, hne⟩
    · exact .inr ⟨Nat.le_trans h.nextTask hlow, hhigh, hne⟩

/-- A change of what neither the tasks nor the news are part of is no work. -/
lemma Work.aside (hh : d.history = c.history) (ht : d.tasks = c.tasks) (hl : d.handle = c.handle)
    (hn : c.nextTask ≤ d.nextTask) : Work t role P c d where
  news := ⟨[], hh, fun o ho => by cases ho⟩
  nextTask := hn
  others u _ := .inl (.inl (by rw [ht]))
  own task htask := .inl (by rwa [ht] at htask)
  handle l h := .inl (by rwa [hl] at h)

lemma Work.refl (c : Controller) : Work t role P c c := .aside rfl rfl rfl (Nat.le_refl _)

lemma Work.note {o : Occurrence} (ho : P o) : Work t role P c (c.note o) where
  news := ⟨[o], rfl, fun _ ho' => List.mem_singleton.mp ho' ▸ ho⟩
  nextTask := Nat.le_refl _
  others _ _ := .inl (.inl rfl)
  own _ htask := .inl htask
  handle _ h := .inl h

lemma Work.suspend {w : Wait} (hw : w.fits role = true) :
    Work t role P c (c.suspend t role w) where
  news := ⟨[], rfl, fun o ho => by cases ho⟩
  nextTask := Nat.le_refl _
  others u hut := .inl (.inl (suspend_tasks_of_ne hut))
  own task htask := by
    rw [suspend_tasks_self, Option.some.injEq] at htask
    exact .inr (htask ▸ ⟨rfl, hw⟩)
  handle _ h := .inl h

lemma Work.call {r : SimulatorRequest} {w : Wait} (hp : P (.sent t 0 r))
    (hw : w.fits role = true) : Work t role P c (c.call t role r w) :=
  (Work.note hp).trans (.suspend hw)

lemma Work.drop : Work t role P c (c.drop t) where
  news := ⟨[], rfl, fun o ho => by cases ho⟩
  nextTask := Nat.le_refl _
  others u hut := .inl (.inl (drop_tasks_of_ne hut))
  own task htask := absurd rfl (drop_tasks_eq_some htask).1
  handle _ h := .inl h

section

variable (hp : Harmless t P)
include hp

/-- To tell the views something is work that leaves the tasks alone. -/
lemma Work.told (messages : List ViewMessage)
    (hh : d.history = messages.map .published ++ c.history) (ht : d.tasks = c.tasks)
    (hl : d.handle = c.handle) (hn : c.nextTask ≤ d.nextTask) :
    Work t role P c d where
  news := by
    refine ⟨messages.map .published, hh, fun o ho => ?_⟩
    obtain ⟨m, _, rfl⟩ := List.mem_map.mp ho
    exact hp.published m
  nextTask := hn
  others _ _ := .inl (.inl (by rw [ht]))
  own _ htask := .inl (by rwa [ht] at htask)
  handle l h := .inl (by rwa [hl] at h)

lemma Work.publish (m : ViewMessage) : Work t role P c (c.publish m) := .note (hp.published m)

lemma Work.setState (s : ExecutionState) : Work t role P c (c.setState s) :=
  .told hp [_] rfl rfl rfl (Nat.le_refl _)

lemma Work.release : Work t role P c c.release := by
  unfold Controller.release
  split
  · exact .aside rfl rfl rfl (Nat.le_refl _)
  · next u rest _ =>
    refine Work.trans ?_ (.note (hp.ready u))
    exact .aside rfl rfl rfl (Nat.le_refl _)

lemma Work.answer (result : Except Error Reply) : Work t role P c (c.answer t result) :=
  Work.drop.trans (.note (hp.answered result))

lemma Work.endLoop : Work t role P c (c.endLoop t) :=
  endLoop_induction (P := fun d => Work t role P c d) .drop
    fun _ u hd => hd.trans (.note (hp.ready u))

lemma Work.conclude (result : Except Error Reply) :
    Work t role P c (c.conclude t role' result) := by
  cases role' with
  | request => exact (Work.release hp).trans (.answer hp result)
  | loop asked => exact (Work.release hp).trans (.endLoop hp)

lemma Work.leaveLoop (halt : Halt) : Work t role P c (c.leaveLoop t halt) := by
  cases halt with
  | pause => exact (Work.setState hp .paused).trans (.endLoop hp)
  | stop => exact .endLoop hp

lemma Work.beginTurn {asked : Option Halt} : Work t (.loop asked) P c (c.beginTurn t asked) := by
  cases asked with
  | some halt => exact .leaveLoop hp halt
  | none => exact (Work.suspend rfl).trans (.note (hp.slept _))

lemma Work.withLoop (ht : t < c.nextTask) : Work t role P c c.withLoop where
  news := ⟨[.ready c.nextTask], rfl, fun _ ho => List.mem_singleton.mp ho ▸ hp.ready _⟩
  nextTask := Nat.le_succ _
  others u _ := by
    by_cases hu : u = c.nextTask
    · subst hu
      exact .inr ⟨Nat.le_refl _, Nat.lt_succ_self _, none, withLoop_tasks_self c⟩
    · exact .inl (.inl (withLoop_tasks_of_ne hu))
  own _ htask := .inl (withLoop_tasks_of_ne (Nat.ne_of_lt ht) ▸ htask)
  handle l hl := by
    cases hl
    exact .inr ⟨Nat.le_refl _, Nat.lt_succ_self _, Nat.ne_of_gt ht⟩

lemma Work.startLoop (ht : t < c.nextTask) : Work t role P c (c.startLoop t) := by
  rw [startLoop_eq]
  refine (Work.setState hp .running).trans (Work.trans ?_ (.conclude hp _))
  exact .withLoop hp ht

lemma Work.failLoad (err : Error) : Work t role P c (c.failLoad t err) := by
  refine Work.trans ?_ (.conclude hp _)
  exact .told hp [_, _] rfl rfl rfl (Nat.le_refl _)

lemma Work.load {goal : LoadGoal} (hbegin : ∀ mode, P (.sent t 0 (.begin mode))) :
    Work t .request P c (c.load t goal) := by
  unfold Controller.load
  split
  · exact .conclude hp _
  · exact (Work.setState hp .loading).trans (.call (hbegin _) rfl)

lemma Work.reset {result : Except Error Reply} (hbegin : ∀ mode, P (.sent t 0 (.begin mode))) :
    Work t role P c (c.reset t role result) :=
  (Work.setState hp .stopped).trans (.call (hbegin _) rfl)

lemma Work.afterReset {result : Except Error Reply} :
    Work t role P c (c.afterReset t role result) := by
  refine Work.trans ?_ (.conclude hp _)
  exact .told hp [_, _, _, _, _] rfl rfl rfl (Nat.le_refl _)

omit hp in
lemma Work.refresh {next : AfterRefresh}
    (hread : ∀ slot range, P (.sent t slot (readRequest range)))
    (hw : ∀ pending, (Wait.refresh pending next).fits role = true) :
    Work t role P c (c.refresh t role next) := by
  rw [refresh_eq]
  refine Work.trans ?_ (.suspend (hw _))
  exact sendReads_induction (P := fun d => Work t role P c d) (.refl c)
    fun _ slot range hd => hd.trans (.note (hread slot range))

lemma Work.takeStep {next : RegisterSnapshot} : Work t role P c (c.takeStep next) :=
  takeStep_induction (P := fun d => Work t role P c d) (.told hp [_] rfl rfl rfl (Nat.le_refl _))
    fun _ _ hd => hd.trans (.publish hp _)

lemma Work.endTurn {asked : Option Halt} {verdict : StepVerdict} :
    Work t (.loop asked) P c (c.endTurn t asked verdict) := by
  unfold Controller.endTurn
  split
  · exact (Work.release hp).trans (.beginTurn hp)
  · exact (Work.setState hp .paused).trans (.conclude hp _)

lemma Work.afterRefresh {next : AfterRefresh} (ht : t < c.nextTask) :
    Work t role P c (c.afterRefresh t role next) := by
  have htold : Work t role P c
      ((c.publishOf ViewMessage.ofMemory).publishOf ViewMessage.ofWatches) :=
    .told hp [_, _] rfl rfl rfl (Nat.le_refl _)
  refine htold.trans ?_
  cases next with
  | load goal =>
    refine (Work.setState hp .ready).trans ?_
    cases goal with
    | run => exact .startLoop hp ht
    | step => exact (Work.release hp).trans (.answer hp _)
  | step verdict =>
    cases role with
    | request =>
      exact (Work.setState hp .paused).trans ((Work.release hp).trans (.answer hp _))
    | loop asked => exact .endTurn hp

end

/-! ## What an event lets its task ask -/

/-- What an event lets the task that it sets to work ask the simulator. -/
inductive Prompts (c : Controller) : Event → SimulatorRequest → Prop where
  | load {r mode} (hr : r = .run ∨ r = .step) (hg : c.guard = none)
      (hs : c.state = .idle ∨ c.state = .stopped) : Prompts c (.request r) (.begin mode)
  | step (hg : c.guard = none) (hs : c.state = .ready ∨ c.state = .paused) :
      Prompts c (.request .step) .step
  | stop {mode} (hg : c.guard = none) : Prompts c (.request .stop) (.begin mode)
  | window {first last range} (hr : AddressRange.between first last = .ok range)
      (hg : c.guard = none) (hs : betweenSteps c.state = true) :
      Prompts c (.request (.setWindow first last)) (readRequest range)
  | check {texts names} : Prompts c (.request (.check texts names)) (.check texts names)
  | begun {t : TaskId} {goal} {role : Role} (ht : c.tasks[t]? = some ⟨role, .begin goal⟩) :
      Prompts c (.began t (.ok ())) (.load c.settings.request)
  | loaded {t : TaskId} {registers files range} :
      Prompts c (.loaded t (.ok (.loaded registers files))) (readRequest range)
  | ended {t : TaskId} {answer mode} (h : EndsProgram c.session answer) :
      Prompts c (.stepped t answer) (.begin mode)
  | stepped {t : TaskId} {next range} (h : (c.session.applyStep next).2.verdict ≠ .finished) :
      Prompts c (.stepped t (.ok next)) (readRequest range)
  | woken {t : TaskId} (ht : c.tasks[t]? = some ⟨.loop none, .asleep⟩) (hg : c.guard = none) :
      Prompts c (.resumed t) .step
  | served {t : TaskId} (ht : c.tasks[t]? = some ⟨.loop none, .inLine⟩) (hg : c.guard = some t) :
      Prompts c (.resumed t) .step
  | freed {t : TaskId} {role : Role} {loop mode}
      (ht : c.tasks[t]? = some ⟨role, .loopEnd loop .stop⟩) (hg : c.guard = none) :
      Prompts c (.resumed t) (.begin mode)

/-- A loop that is asked to halt keeps its wait, and the other tasks keep their entries. -/
lemma askHalt_kept (c : Controller) (loop : TaskId) (halt : Halt) (u : TaskId) :
    Kept c.tasks[u]? (c.askHalt loop halt).tasks[u]? := by
  unfold askHalt
  split
  · next asked wait hloop =>
    have hset : Kept c.tasks[u]?
        (c.suspend loop (.loop (some (Halt.strengthen asked halt))) wait).tasks[u]? := by
      by_cases hu : u = loop
      · subst hu
        exact .inr ⟨asked, halt, wait, hloop, suspend_tasks_self ..⟩
      · exact .inl (suspend_tasks_of_ne hu)
    split <;> exact hset
  · exact .inl rfl

section

variable (hp : Harmless t P)
include hp

lemma Work.guarded {go : Controller → Controller}
    (hgo : c.guard = none → Work t role P (c.hold t) (go (c.hold t))) :
    Work t role P c (c.guarded t go) := by
  unfold Controller.guarded
  split
  · exact .answer hp _
  · next hg =>
    refine Work.trans ?_ (hgo hg)
    exact .aside rfl rfl rfl (Nat.le_refl _)

lemma Work.run (ht : t < c.nextTask)
    (hsent : ∀ slot r, Prompts c (.request .run) r → P (.sent t slot r)) :
    Work t .request P c (c.run t) := by
  refine .guarded hp fun hg => ?_
  have hstate : (c.hold t).state = c.state := rfl
  rw [hstate]
  cases hs : c.state with
  | running | loading => exact .conclude hp _
  | idle => exact .load hp (fun _ => hsent _ _ (.load (.inl rfl) hg (.inl hs)))
  | stopped => exact .load hp (fun _ => hsent _ _ (.load (.inl rfl) hg (.inr hs)))
  | ready | paused => exact .startLoop hp ht

lemma Work.step
    (hsent : ∀ slot r, Prompts c (.request .step) r → P (.sent t slot r)) :
    Work t .request P c (c.step t) := by
  refine .guarded hp fun hg => ?_
  have hstate : (c.hold t).state = c.state := rfl
  rw [hstate]
  cases hs : c.state with
  | running | loading => exact .conclude hp _
  | idle => exact .load hp (fun _ => hsent _ _ (.load (.inr rfl) hg (.inl hs)))
  | stopped => exact .load hp (fun _ => hsent _ _ (.load (.inr rfl) hg (.inr hs)))
  | ready =>
    exact (Work.setState hp .running).trans (.call (hsent _ _ (.step hg (.inl hs))) rfl)
  | paused =>
    exact (Work.setState hp .running).trans (.call (hsent _ _ (.step hg (.inr hs))) rfl)

lemma Work.stopNow (hsent : c.guard = none → ∀ mode, P (.sent t 0 (.begin mode))) :
    Work t .request P c (c.stopNow t) :=
  .guarded hp fun hg => .reset hp (hsent hg)

lemma Work.askHalt {loop : TaskId} {halt : Halt} (hne : loop ≠ t) :
    Work t role P c (c.askHalt loop halt) where
  news := by
    rcases askHalt_history c loop halt with hsame | hwoken
    · exact ⟨[], hsame, fun o ho => by cases ho⟩
    · exact ⟨[_], hwoken, fun _ ho => List.mem_singleton.mp ho ▸ hp.ready _⟩
  nextTask := Nat.le_of_eq (by rw [askHalt_eq])
  others u _ := .inl (askHalt_kept c loop halt u)
  own task htask := by
    refine .inl ?_
    unfold Controller.askHalt at htask
    split at htask
    · split at htask
      · exact getElem?_insert_of_ne (Ne.symm hne) ▸ htask
      · exact getElem?_insert_of_ne (Ne.symm hne) ▸ htask
    · exact htask
  handle l hl := by
    rw [askHalt_eq] at hl
    exact .inl hl

lemma Work.haltLoop {halt : Halt} {otherwise : Controller → Controller}
    (hne : ∀ loop, c.tasks.contains loop = true → loop ≠ t)
    (hgo : Work t .request P { c with handle := none } (otherwise { c with handle := none })) :
    Work t .request P c (c.haltLoop t halt otherwise) := by
  have htaken : Work t .request P c { c with handle := none } := {
    news := ⟨[], rfl, fun o ho => by cases ho⟩
    nextTask := Nat.le_refl _
    others := fun _ _ => .inl (.inl rfl)
    own := fun _ htask => .inl htask
    handle := fun l hl => by cases hl }
  unfold Controller.haltLoop
  split
  · next loop _ =>
    split
    · next hloop => exact htaken.trans ((Work.askHalt hp (hne loop hloop)).trans (.suspend rfl))
    · exact htaken.trans hgo
  · exact htaken.trans hgo

/-- A request of a view is the work of the next task. -/
lemma Work.request {r : ViewRequest} (ht : t = c.nextTask) (hnew : c.tasks[t]? = none)
    (hsent : ∀ slot q, Prompts c (.request r) q → P (.sent t slot q)) :
    Work t .request P { c with nextTask := c.nextTask + 1 } (c.request r) := by
  subst ht
  have hlt : c.nextTask < { c with nextTask := c.nextTask + 1 }.nextTask := Nat.lt_succ_self _
  -- the number of a request is new, so the loop that it halts is another task
  have hne (loop : TaskId)
      (hloop : { c with nextTask := c.nextTask + 1 }.tasks.contains loop = true) :
      loop ≠ c.nextTask := by
    rintro rfl
    rw [Std.ExtTreeMap.contains_eq_isSome_getElem?, hnew] at hloop
    cases hloop
  unfold Controller.request
  cases r with
  | run =>
    refine .run hp hlt fun slot q hq => hsent slot q ?_
    cases hq with
    | load hr hg hs => exact .load hr hg hs
  | step =>
    refine .step hp fun slot q hq => hsent slot q ?_
    cases hq with
    | load hr hg hs => exact .load hr hg hs
    | step hg hs => exact .step hg hs
  | pause =>
    refine .haltLoop hp hne ?_
    dsimp only
    cases c.state <;> exact .answer hp _
  | stop => exact .haltLoop hp hne (.stopNow hp fun hg _ => hsent _ _ (.stop hg))
  | toggleBreakpoint file row =>
    refine Work.trans ?_ (.answer hp _)
    exact .told hp [_] rfl rfl rfl (Nat.le_refl _)
  | selectListing file =>
    dsimp only [selectListing]
    split
    · refine Work.trans ?_ (.answer hp _)
      exact .told hp [_] rfl rfl rfl (Nat.le_refl _)
    · exact .answer hp _
  | setDelay ms =>
    dsimp only [setDelay]
    split
    · refine Work.trans ?_ (.answer hp _)
      exact .aside rfl rfl rfl (Nat.le_refl _)
    · exact .answer hp _
  | setWindow first last =>
    dsimp only [setWindow]
    split
    · exact .answer hp _
    · next range hrange =>
      split
      · next hfree =>
        refine Work.trans ?_ (.call (hsent _ _ (.window hrange hfree.2 hfree.1)) rfl)
        exact .aside rfl rfl rfl (Nat.le_refl _)
      · refine Work.trans ?_ (.answer hp _)
        exact .told hp [_] rfl rfl rfl (Nat.le_refl _)
  | check texts names =>
    dsimp only [check]
    split
    · exact .answer hp _
    · exact .call (hsent _ _ .check) rfl
  | queryState => exact .answer hp _

end

/-! ## All events -/

lemma Sound.nextTask_free (hs : Sound c) : c.tasks[c.nextTask]? = none := by
  cases hnew : c.tasks[c.nextTask]? with
  | none => rfl
  | some task => exact absurd (hs.fresh _ task hnew) (Nat.lt_irrefl _)

lemma roleOf_eq {task : Task} (h : c.tasks[t]? = some task) : c.roleOf t = task.role := by
  rw [roleOf, h]
  rfl

section

variable (hp : Harmless t P)
include hp

lemma Work.resume {task : Task} (hs : Sound c) (ht : c.tasks[t]? = some task)
    (hd : c.resume? t task = some d)
    (hsent : ∀ slot r, Prompts c (.resumed t) r → P (.sent t slot r)) :
    Work t task.role P c d := by
  have hfits := hs.fits t task ht
  rcases resume?_eq_some hd with ⟨asked, rfl, rfl⟩ | ⟨asked, rfl, rfl⟩ | ⟨asked, rfl, hg, rfl⟩ |
    ⟨role, loop, halt, rfl, _, rfl⟩
  · exact .beginTurn hp
  · cases asked with
    | some halt => exact .leaveLoop hp halt
    | none =>
      unfold Controller.afterDelay
      cases hg : c.guard with
      | none =>
        refine Work.trans ?_ (.call (hsent _ _ (.woken ht hg)) rfl)
        exact .aside rfl rfl rfl (Nat.le_refl _)
      | some holder =>
        refine Work.trans ?_ (.suspend rfl)
        exact .aside rfl rfl rfl (Nat.le_refl _)
  · -- a loop that is given the guard looks again whether it was asked to halt meanwhile
    cases asked with
    | none => exact .call (hsent _ _ (.served ht hg)) rfl
    | some halt => exact (Work.release hp).trans (.leaveLoop hp halt)
  · obtain rfl : role = .request := by simpa [Wait.fits] using hfits
    cases halt with
    | pause => exact .answer hp _
    | stop => exact .stopNow hp fun hg _ => hsent _ _ (.freed ht hg)

lemma Work.afterBegin {goal : LoadGoal} {result : Except Error Unit}
    (ht : c.tasks[t]? = some ⟨.request, .begin goal⟩)
    (hsent : ∀ slot r, Prompts c (.began t result) r → P (.sent t slot r)) :
    Work t .request P c (c.afterBegin t goal result) := by
  cases result with
  | error err => exact .failLoad hp err
  | ok => exact .call (hsent _ _ (.begun ht)) rfl

lemma Work.afterLoad {goal : LoadGoal} {result : Except Error LoadOutcome}
    (hsent : ∀ slot r, Prompts c (.loaded t result) r → P (.sent t slot r)) :
    Work t .request P c (c.afterLoad t goal result) := by
  cases result with
  | error err => exact .failLoad hp err
  | ok outcome =>
    cases outcome with
    | loaded registers files =>
      refine Work.trans ?_ (.refresh (fun _ _ => hsent _ _ .loaded) fun _ => rfl)
      exact .told hp [_, _, _] rfl rfl rfl (Nat.le_refl _)
    | failed files =>
      have htaken : Work t .request P c (c.takeErrors files) :=
        takeErrors_induction (P := fun d => Work t .request P c d)
          (.told hp [_] rfl rfl rfl (Nat.le_refl _)) fun _ _ hd => hd.trans (.publish hp _)
      rw [afterLoad_failed]
      exact htaken.trans ((Work.setState hp .idle).trans (.conclude hp _))

lemma Work.afterStep {result : Except Error RegisterSnapshot}
    (hsent : ∀ slot r, Prompts c (.stepped t result) r → P (.sent t slot r)) :
    Work t role P c (c.afterStep t role result) := by
  cases result with
  | error err =>
    exact (Work.publish hp _).trans (.reset hp fun _ => hsent _ _ (.ended trivial))
  | ok next =>
    rw [afterStep_ok]
    split
    · next hv => exact (Work.takeStep hp).trans (.reset hp fun _ => hsent _ _ (.ended hv))
    · next hv =>
      exact (Work.takeStep hp).trans (.refresh (fun _ _ => hsent _ _ (.stepped hv)) fun _ => rfl)

lemma Work.afterRead {pending : List PendingRead} {next : AfterRefresh} {slot : Nat}
    {result : Except Error (List UInt8)} (hs : Sound c)
    (ht : c.tasks[t]? = some ⟨role, .refresh pending next⟩) :
    Work t role P c (c.afterRead t role pending next slot result) := by
  have hfits := hs.fits t _ ht
  unfold Controller.afterRead
  split
  · exact .refl c
  · next p _ =>
    refine Work.trans (d := c.withSession (storeRead · p.target result))
      (.aside rfl rfl rfl (Nat.le_refl _)) ?_
    dsimp only
    split
    · exact .afterRefresh hp (hs.fresh t _ ht)
    · exact .suspend (by cases next <;> exact hfits)

lemma Work.afterWindow {range : AddressRange} {result : Except Error (List UInt8)} :
    Work t role P c (c.afterWindow t range result) := by
  refine Work.trans (d := c.withSession (storeRead · (.window range) result))
    (.aside rfl rfl rfl (Nat.le_refl _)) ((Work.release hp).trans (Work.trans ?_ (.answer hp _)))
  exact .publish hp _

lemma Work.afterCheck {result : Except Error (List CheckedFile)} :
    Work t role P c (c.afterCheck t result) := by
  cases result with
  | error err => exact .answer hp _
  | ok files =>
    refine Work.trans ?_ (.answer hp _)
    exact .told hp [_] rfl rfl rfl (Nat.le_refl _)

end

/-- An event is the work of one task, which asks nothing but what the event prompts. -/
theorem work_of_perform {e : Event} (hs : Sound c) (hd : c.perform? e = some d)
    (hp : Harmless (e.worker c) P)
    (hsent : ∀ slot r, Prompts c e r → P (.sent (e.worker c) slot r)) :
    Work (e.worker c) (c.roleOf (e.worker c)) P c d := by
  cases e with
  | request r =>
    cases hd
    have hrole : c.roleOf (Event.worker c (.request r)) = .request := by
      rw [roleOf, Event.worker, hs.nextTask_free]
      rfl
    rw [hrole]
    have hraise : Work c.nextTask .request P c { c with nextTask := c.nextTask + 1 } :=
      .aside rfl rfl rfl (Nat.le_succ _)
    exact hraise.trans (.request hp rfl hs.nextTask_free hsent)
  | resumed t =>
    obtain ⟨task, ht, hd⟩ := perform?_resumed hd
    rw [Event.worker, roleOf_eq ht]
    exact .resume hp hs ht hd hsent
  | began t result =>
    rcases perform?_began hd with ⟨role, goal, ht, rfl⟩ | ⟨role, outcome, ht, rfl⟩
    · have hfits := hs.fits t _ ht
      obtain rfl : role = .request := by simpa [Wait.fits] using hfits
      rw [Event.worker, roleOf_eq ht]
      exact .afterBegin hp ht hsent
    · rw [Event.worker, roleOf_eq ht]
      exact .afterReset hp
  | loaded t result =>
    obtain ⟨role, goal, ht, rfl⟩ := perform?_loaded hd
    have hfits := hs.fits t _ ht
    obtain rfl : role = .request := by simpa [Wait.fits] using hfits
    rw [Event.worker, roleOf_eq ht]
    exact .afterLoad hp hsent
  | stepped t result =>
    obtain ⟨role, ht, rfl⟩ := perform?_stepped hd
    rw [Event.worker, roleOf_eq ht]
    exact .afterStep hp hsent
  | read t slot result =>
    rcases perform?_read hd with ⟨role, pending, next, ht, hslot, rfl⟩ |
      ⟨role, range, ht, rfl, rfl⟩
    · rw [Event.worker, roleOf_eq ht]
      exact .afterRead hp hs ht
    · exact .afterWindow hp
  | checked t result =>
    obtain ⟨role, ht, rfl⟩ := perform?_checked hd
    exact .afterCheck hp

/-! ## The tasks of a run are sound -/

/-- What a task asks and ends is its own. -/
def IsBy (t : TaskId) : Occurrence → Prop
  | .sent u _ _ => u = t
  | .answered u _ => u = t
  | _ => True

lemma harmless_isBy (t : TaskId) : Harmless t (IsBy t) where
  published _ := trivial
  slept _ := trivial
  ready _ := trivial
  answered _ := rfl

lemma Sound.isBy {e : Event} (hs : Sound c) (hd : c.perform? e = some d) :
    Work (e.worker c) (c.roleOf (e.worker c)) (IsBy (e.worker c)) c d :=
  work_of_perform hs hd (harmless_isBy _) fun _ _ _ => rfl

/-- What an event sends is sent by the task that it sets to work, and prompted by it. -/
theorem prompts_of_sent {e : Event} {u : TaskId} {slot : Nat} {r : SimulatorRequest}
    (hs : Sound c) (hd : c.perform? e = some d) (hh : c.history = [])
    (hsent : .sent u slot r ∈ d.history) : u = e.worker c ∧ Prompts c e r := by
  have hp : Harmless (e.worker c)
      (fun o => ∀ u slot r, o = .sent u slot r → u = e.worker c ∧ Prompts c e r) := {
    published := fun _ _ _ _ he => by cases he
    slept := fun _ _ _ _ he => by cases he
    ready := fun _ _ _ _ he => by cases he
    answered := fun _ _ _ _ he => by cases he }
  obtain ⟨news, hnews, hall⟩ := (work_of_perform hs hd hp fun slot r hr _ _ _ he => by
    cases he
    exact ⟨rfl, hr⟩).news
  rw [hh, List.append_nil] at hnews
  exact hall _ (hnews ▸ hsent) _ _ _ rfl

/-- What an event answers is answered by the task that it sets to work. -/
theorem worker_of_answered {e : Event} {u : TaskId} {result : Except Error Reply}
    (hs : Sound c) (hd : c.perform? e = some d) (hh : c.history = [])
    (ha : .answered u result ∈ d.history) : u = e.worker c := by
  obtain ⟨news, hnews, hall⟩ := (hs.isBy hd).news
  rw [hh, List.append_nil] at hnews
  exact hall _ (hnews ▸ ha)

/-- What a task waits for is what sets it to work. -/
theorem accepts_of_perform {e : Event} {task : Task} (hs : Sound c) (hd : c.perform? e = some d)
    (ht : c.tasks[e.worker c]? = some task) : task.wait.accepts e = true := by
  have hwait {w : Wait} {role : Role} (hw : c.tasks[e.worker c]? = some ⟨role, w⟩) :
      task.wait = w := by
    rw [ht, Option.some.injEq] at hw
    rw [hw]
  cases e with
  | request r =>
    rw [Event.worker, hs.nextTask_free] at ht
    cases ht
  | resumed t =>
    obtain ⟨task', ht', hd⟩ := perform?_resumed hd
    rcases resume?_eq_some hd with ⟨_, rfl, _⟩ | ⟨_, rfl, _⟩ | ⟨_, rfl, _, _⟩ | ⟨_, _, _, rfl, _, _⟩
      <;> rw [hwait ht'] <;> rfl
  | began t result =>
    rcases perform?_began hd with ⟨_, _, hw, _⟩ | ⟨_, _, hw, _⟩ <;> rw [hwait hw] <;> rfl
  | loaded t result =>
    obtain ⟨_, _, hw, _⟩ := perform?_loaded hd
    rw [hwait hw]
    rfl
  | stepped t result =>
    obtain ⟨_, hw, _⟩ := perform?_stepped hd
    rw [hwait hw]
    rfl
  | read t slot result =>
    rcases perform?_read hd with ⟨_, _, _, hw, _⟩ | ⟨_, _, hw, _⟩ <;> rw [hwait hw] <;> rfl
  | checked t result =>
    obtain ⟨_, hw, _⟩ := perform?_checked hd
    rw [hwait hw]
    rfl

/-- A task that is not taken up only just is there when an event sets it to work. -/
lemma worker_mem {e : Event} (hd : c.perform? e = some d) (hr : ∀ r, e ≠ .request r) :
    ∃ task, c.tasks[e.worker c]? = some task := by
  cases e with
  | request r => exact absurd rfl (hr r)
  | resumed t =>
    obtain ⟨task, ht, _⟩ := perform?_resumed hd
    exact ⟨task, ht⟩
  | began t result =>
    rcases perform?_began hd with ⟨_, _, ht, _⟩ | ⟨_, _, ht, _⟩
    · exact ⟨_, ht⟩
    · exact ⟨_, ht⟩
  | loaded t result =>
    obtain ⟨_, _, ht, _⟩ := perform?_loaded hd
    exact ⟨_, ht⟩
  | stepped t result =>
    obtain ⟨_, ht, _⟩ := perform?_stepped hd
    exact ⟨_, ht⟩
  | read t slot result =>
    rcases perform?_read hd with ⟨_, _, _, ht, _⟩ | ⟨_, _, ht, _⟩
    · exact ⟨_, ht⟩
    · exact ⟨_, ht⟩
  | checked t result =>
    obtain ⟨_, ht, _⟩ := perform?_checked hd
    exact ⟨_, ht⟩

lemma Sound.worker_lt {e : Event} (hs : Sound c) (hd : c.perform? e = some d) :
    e.worker c < d.nextTask := by
  by_cases hr : ∃ r, e = .request r
  · obtain ⟨r, rfl⟩ := hr
    cases hd
    exact (Work.request (harmless_isBy c.nextTask) rfl hs.nextTask_free
      fun _ _ _ => rfl : Work _ _ _ _ (c.request r)).nextTask
  · obtain ⟨task, ht⟩ := worker_mem hd fun r he => hr ⟨r, he⟩
    exact Nat.lt_of_lt_of_le (hs.fresh _ task ht) (hs.isBy hd).nextTask

/-- The number of a task is used up. -/
lemma Sound.fresh_perform {e : Event} (hs : Sound c) (hd : c.perform? e = some d) (u : TaskId)
    (task : Task) (hu : d.tasks[u]? = some task) : u < d.nextTask := by
  have hw := hs.isBy hd
  by_cases hut : u = e.worker c
  · exact hut ▸ hs.worker_lt hd
  · rcases hw.others u hut with (hk | ⟨_, _, _, hk, _⟩) | ⟨_, hlt, _⟩
    · exact Nat.lt_of_lt_of_le (hs.fresh u task (hk ▸ hu)) hw.nextTask
    · exact Nat.lt_of_lt_of_le (hs.fresh u _ hk) hw.nextTask
    · exact hlt

/-- A task waits as its role can. -/
lemma Sound.fits_perform {e : Event} (hs : Sound c) (hd : c.perform? e = some d) (u : TaskId)
    (task : Task) (hu : d.tasks[u]? = some task) : task.wait.fits task.role = true := by
  have hw := hs.isBy hd
  by_cases hut : u = e.worker c
  · subst hut
    rcases hw.own task hu with hold | ⟨hrole, hfits⟩
    · exact hs.fits _ task hold
    · exact hrole ▸ hfits
  · rcases hw.others u hut with (hk | ⟨asked, halt, wait, hk, hk'⟩) | ⟨_, _, asked, hnew⟩
    · exact hs.fits u task (hk ▸ hu)
    · rw [hk', Option.some.injEq] at hu
      subst hu
      -- how a loop can wait does not depend on what it was asked
      have hfits := hs.fits u _ hk
      cases wait <;> first | rfl | exact hfits
    · rw [hnew, Option.some.injEq] at hu
      subst hu
      rfl

/-- The task that has the handle is a loop. -/
lemma Sound.handle_perform {e : Event} (hs : Sound c) (hd : c.perform? e = some d) {l : TaskId}
    (hl : d.handle = some l) : l < d.nextTask ∧
      ∀ task : Task, d.tasks[l]? = some task → task.role ≠ .request := by
  have hw := hs.isBy hd
  rcases hw.handle l hl with hl | ⟨hlow, hhigh, hne⟩
  · obtain ⟨hlt, hloop⟩ := hs.handle l hl
    refine ⟨Nat.lt_of_lt_of_le hlt hw.nextTask, fun task ht => ?_⟩
    by_cases hle : l = e.worker c
    · subst hle
      rcases hw.own task ht with hold | ⟨hrole, _⟩
      · exact hloop task hold
      · -- the worker is a task that was there, since its number was used up
        obtain ⟨task', ht'⟩ := worker_mem hd fun r he => by
          subst he
          exact Nat.lt_irrefl _ hlt
        rw [hrole, roleOf_eq ht']
        exact hloop task' ht'
    · rcases hw.others l hle with (hk | ⟨_, _, _, _, hk'⟩) | ⟨_, _, _, hnew⟩
      · exact hloop task (hk ▸ ht)
      · rw [hk', Option.some.injEq] at ht
        subst ht
        exact Role.noConfusion
      · rw [hnew, Option.some.injEq] at ht
        subst ht
        exact Role.noConfusion
  · -- the handle has passed to a loop that was made just now, under a number that was free
    refine ⟨hhigh, fun task ht => ?_⟩
    have hfree : c.tasks[l]? = none := by
      cases hold : c.tasks[l]? with
      | none => rfl
      | some task' => exact absurd (hs.fresh l task' hold) (Nat.not_lt.mpr hlow)
    rcases hw.others l hne with (hk | ⟨_, _, _, hk, _⟩) | ⟨_, _, _, hnew⟩
    · rw [hk, hfree] at ht
      cases ht
    · rw [hfree] at hk
      cases hk
    · rw [hnew, Option.some.injEq] at ht
      subst ht
      exact Role.noConfusion

/-- The tasks stay sound in every event. -/
theorem Sound.perform {e : Event} (hs : Sound c) (hd : c.perform? e = some d) : Sound d where
  fresh := hs.fresh_perform hd
  fits := hs.fits_perform hd
  handle _ hl := hs.handle_perform hd hl

/-- The tasks of every run are sound. -/
theorem sound_of_run {settings : ControllerSettings} {log : List LogEntry}
    (h : Run (.ofSettings settings) log c) : Sound c := by
  refine h.invariant (P := fun _ c => Sound c) (fun h hc => hc.forget h) ?_
    (fun _ _ hc hd => hc.perform hd)
  exact {
    fresh := fun u task hu => by simp [ofSettings] at hu
    fits := fun u task hu => by simp [ofSettings] at hu
    handle := fun l hl => by cases hl }

end Controller
end SicDebugger
