import SicDebugger.Proofs.Discipline

/-!
# Calm controllers

A controller is calm while at most one loop rolls, which is to say that it lives and was not told to
stop; the guard is free for it or in its hands; nobody is in line; and the execution state and the
session are what the section that is under way leads to expect. What the tasks do keeps a controller
calm, apart from one thing: a reset can begin while a loop rolls.
-/

namespace SicDebugger

/-! ## What a log says about the program -/

/-- Whether a load has brought a program since the last begin was sent. -/
def holdsProgram : List LogEntry → Bool
  | [] => false
  | .occurrence (.sent _ _ (.begin _)) :: _ => false
  | .event _ (.loaded _ (.ok (.loaded ..))) :: _ => true
  | _ :: past => holdsProgram past

/-- Every step was sent while there was a program. -/
def StepsLoaded : List LogEntry → Prop
  | [] => True
  | .occurrence (.sent _ _ .step) :: past => holdsProgram past = true ∧ StepsLoaded past
  | _ :: past => StepsLoaded past

/-- A session without registers, listings, variables and bytes of memory. -/
structure Session.IsBlank (s : Session) : Prop where
  registers : s.registers.snapshot = none
  listings : s.listings.listings = []
  watches : s.watches.entries = []
  memory : s.memory.values = []

/-- A session with registers, while there is a program. -/
def Session.IsLoaded (log : List LogEntry) (s : Session) : Prop :=
  s.registers.snapshot.isSome = true ∧ holdsProgram log = true

lemma Session.isBlank_clear (s : Session) : s.clear.IsBlank := ⟨rfl, rfl, rfl, rfl⟩

/-- A session is as blank and as loaded as another one. -/
structure Session.Alike (s s' : Session) : Prop where
  blank : s.IsBlank → s'.IsBlank
  registers : s'.registers.snapshot = s.registers.snapshot

/-- The execution state during the refresh of a load or a step. -/
def AfterRefresh.state : AfterRefresh → ExecutionState
  | .load _ => .loading
  | .step _ => .running

namespace Controller

/-- The state and the session where the guard is free, or in the hands of a task that waits so. -/
def Phase (log : List LogEntry) (state : ExecutionState) (s : Session) : Option Wait → Prop
  | none => state = .idle ∧ s.IsBlank ∨
      (state = .ready ∨ state = .paused ∨ state = .running) ∧ s.IsLoaded log
  | some (.begin _) => state = .loading ∧ s.IsBlank
  | some (.load _) => state = .loading ∧ s.IsBlank
  | some (.refresh _ next) => state = next.state ∧ s.IsLoaded log
  | some .step => state = .running ∧ s.IsLoaded log
  | some (.reset _) => state = .stopped
  | some (.windowRead _) => (state = .ready ∨ state = .paused) ∧ s.IsLoaded log
  | some _ => False

variable {log log' past : List LogEntry} {c d : Controller} {t l : TaskId} {role : Role}
  {state : ExecutionState} {s s' : Session} {w : Option Wait}

lemma Phase.alike (h : Phase log state s w) (hs : s.Alike s')
    (hp : holdsProgram log' = holdsProgram log) : Phase log' state s' w := by
  have hloaded (hl : s.IsLoaded log) : s'.IsLoaded log' := by
    rw [Session.IsLoaded, hs.registers, hp]
    exact hl
  cases w with
  | none =>
    rcases h with ⟨hidle, hblank⟩ | ⟨hstate, hl⟩
    · exact .inl ⟨hidle, hs.blank hblank⟩
    · exact .inr ⟨hstate, hloaded hl⟩
  | some w =>
    cases w with
    | begin | load => exact ⟨h.1, hs.blank h.2⟩
    | refresh | step | windowRead => exact ⟨h.1, hloaded h.2⟩
    | reset | check | loopEnd | turn | asleep | inLine => exact h

/-- A loop lives and was not told to stop. -/
def Rolls (c : Controller) (l : TaskId) : Prop :=
  ∃ asked wait, c.tasks[l]? = some ⟨.loop asked, wait⟩ ∧ asked ≠ some .stop

/-- A loop that rolls after it was asked to halt rolled before. -/
lemma Rolls.kept (h : Rolls d l) (hk : Kept c.tasks[l]? d.tasks[l]?) : Rolls c l := by
  obtain ⟨asked, wait, hl, hne⟩ := h
  rcases hk with hk | ⟨asked', halt, wait', hk, hk'⟩
  · exact ⟨asked, wait, hk ▸ hl, hne⟩
  · refine ⟨asked', wait', hk, ?_⟩
    rintro rfl
    rw [hk', Option.some.injEq] at hl
    cases hl
    exact hne rfl

/-- A loop that rolls where a task was left out is another one. -/
lemma Rolls.of_drop (h : Rolls (c.drop t) l) : l ≠ t ∧ Rolls c l := by
  obtain ⟨asked, wait, hl, hne⟩ := h
  obtain ⟨hlt, hl⟩ := drop_tasks_eq_some hl
  exact ⟨hlt, asked, wait, hl, hne⟩

/-- A loop that rolls where a task was made to wait is that task, or rolled before. -/
lemma Rolls.of_suspend {w : Wait} (h : Rolls (c.suspend t role w) l) : l = t ∨ Rolls c l := by
  obtain ⟨asked, wait, hl, hne⟩ := h
  rcases suspend_tasks_eq_some hl with ⟨hlt, _⟩ | ⟨_, hl⟩
  · exact .inl hlt
  · exact .inr ⟨asked, wait, hl, hne⟩

/-- A controller is calm. -/
structure Calm (log : List LogEntry) (c : Controller) : Prop where
  line : c.line = []
  noLine : ∀ (u : TaskId) (task : Task), c.tasks[u]? = some task → task.wait ≠ .inLine
  rolling : ∀ l, Rolls c l → c.guard = some l ∨ c.guard = none ∧ c.state = .running
  unique : ∀ l l', Rolls c l → Rolls c l' → l = l'
  free : c.guard = none → Phase log c.state c.session none
  held : ∀ (t : TaskId) (task : Task), c.guard = some t → c.tasks[t]? = some task →
    Phase log c.state c.session (some task.wait)
  steps : StepsLoaded log

/-- A task that has the guard is at work, and no other loop rolls. -/
structure Alone (log : List LogEntry) (c : Controller) (t : TaskId) : Prop where
  guard : c.guard = some t
  line : c.line = []
  noLine : ∀ (u : TaskId) (task : Task), u ≠ t → c.tasks[u]? = some task → task.wait ≠ .inLine
  still : ∀ l, l ≠ t → ¬ Rolls c l
  steps : StepsLoaded log

/-- What is told changes neither the state nor what the log says about the program. -/
lemma Calm.congr (h : Calm log c) (ht : ∀ u : TaskId, Kept c.tasks[u]? d.tasks[u]?)
    (hg : d.guard = c.guard) (hl : d.line = c.line) (hst : d.state = c.state)
    (hs : c.session.Alike d.session) (hp : holdsProgram log' = holdsProgram log)
    (hsteps : StepsLoaded log → StepsLoaded log') : Calm log' d where
  line := hl ▸ h.line
  noLine u task hu := by
    obtain ⟨task', hu', hw⟩ := (ht u).wait hu
    exact hw ▸ h.noLine u task' hu'
  rolling l hr := by
    rw [hg, hst]
    exact h.rolling l (hr.kept (ht l))
  unique l l' hr hr' := h.unique l l' (hr.kept (ht l)) (hr'.kept (ht l'))
  free hnone := by
    rw [hst]
    exact (h.free (hg ▸ hnone)).alike hs hp
  held u task hu htask := by
    obtain ⟨task', hu', hw⟩ := (ht u).wait htask
    rw [hst, ← hw]
    exact (h.held u task' (hg ▸ hu) hu').alike hs hp
  steps := hsteps h.steps

lemma Calm.forget (h : Calm log c) (past : List Occurrence) :
    Calm log { c with history := past } :=
  h.congr (fun _ => .inl rfl) rfl rfl rfl ⟨id, rfl⟩ rfl id

lemma Alone.congr (h : Alone log c t) (ht : ∀ u : TaskId, d.tasks[u]? = c.tasks[u]?)
    (hg : d.guard = c.guard) (hl : d.line = c.line)
    (hsteps : StepsLoaded log → StepsLoaded log') : Alone log' d t where
  guard := hg ▸ h.guard
  line := hl ▸ h.line
  noLine u task hne hu := h.noLine u task hne (ht u ▸ hu)
  still l hne hr := h.still l hne (hr.kept (.inl (ht l)))
  steps := hsteps h.steps

/-! ## A task at work with the guard -/

/-- The task that has the guard works alone where the controller is calm. -/
lemma Calm.alone (h : Calm log c) (hg : c.guard = some t) : Alone log c t where
  guard := hg
  line := h.line
  noLine u task _ hu := h.noLine u task hu
  still l hne hr := by
    rcases h.rolling l hr with hl | ⟨hnone, _⟩
    · exact hne (Option.some.inj (hl.symm.trans hg))
    · rw [hg] at hnone
      cases hnone
  steps := h.steps

/-- The controller is calm when the task waits in a section that the state and the session fit. -/
lemma Alone.suspend {w : Wait} (h : Alone (c.timeline past) c t) (hw : w ≠ .inLine)
    (hp : Phase (c.timeline past) c.state c.session (some w)) :
    Calm ((c.suspend t role w).timeline past) (c.suspend t role w) := by
  have hroll (l : TaskId) (hr : Rolls (c.suspend t role w) l) : l = t :=
    Decidable.byContradiction fun hlt => h.still l hlt (hr.of_suspend.resolve_left hlt)
  exact {
    line := h.line
    noLine := fun u task hu => by
      rcases suspend_tasks_eq_some hu with ⟨_, rfl⟩ | ⟨hut, hu⟩
      · exact hw
      · exact h.noLine u task hut hu
    rolling := fun l hr => .inl (hroll l hr ▸ h.guard)
    unique := fun l l' hr hr' => (hroll l hr).trans (hroll l' hr').symm
    free := fun hnone => by
      have hnone' : c.guard = none := hnone
      rw [h.guard] at hnone'
      cases hnone'
    held := fun u task hu htask => by
      obtain rfl : t = u := Option.some.inj (h.guard.symm.trans hu)
      rw [suspend_tasks_self, Option.some.injEq] at htask
      exact htask ▸ hp
    steps := h.steps }

/-- A task that no loop rolls beside gives the guard back and is left out. -/
lemma Alone.release (h : Alone (c.timeline past) c t)
    (hp : Phase (c.timeline past) c.state c.session none) :
    Calm (c.release.timeline past) (c.release.drop t) ∧ ∀ l, ¬ Rolls (c.release.drop t) l := by
  rw [release_of_line h.line]
  have hroll (l : TaskId) : ¬ Rolls ({ c with guard := none }.drop t) l :=
    fun hr => h.still l hr.of_drop.1 hr.of_drop.2
  exact ⟨{
    line := h.line
    noLine := fun u task hu => by
      obtain ⟨hut, hu⟩ := drop_tasks_eq_some hu
      exact h.noLine u task hut hu
    rolling := fun l hr => absurd hr (hroll l)
    unique := fun l _ hr => absurd hr (hroll l)
    free := fun _ => hp
    held := fun u task hu => by cases hu
    steps := h.steps }, hroll⟩

lemma Calm.answer {result : Except Error Reply} (h : Calm (c.timeline past) (c.drop t)) :
    Calm ((c.answer t result).timeline past) (c.answer t result) :=
  h.congr (fun _ => .inl rfl) rfl rfl rfl ⟨id, rfl⟩ rfl id

lemma Calm.endLoop (h : Calm (c.timeline past) (c.drop t)) :
    Calm ((c.endLoop t).timeline past) (c.endLoop t) :=
  endLoop_induction (P := fun d => Calm (d.timeline past) d) h
    fun _ _ hd => hd.congr (fun _ => .inl rfl) rfl rfl rfl ⟨id, rfl⟩ rfl id

lemma Alone.conclude {result : Except Error Reply} (h : Alone (c.timeline past) c t)
    (hp : Phase (c.timeline past) c.state c.session none) :
    Calm ((c.conclude t role result).timeline past) (c.conclude t role result) := by
  cases role with
  | request => exact (h.release hp).1.answer
  | loop asked => exact (h.release hp).1.endLoop

/-- A new loop rolls alone. -/
lemma Alone.startLoop (h : Alone (c.timeline past) c t)
    (hl : c.session.IsLoaded (c.timeline past)) :
    Calm ((c.startLoop t).timeline past) (c.startLoop t) := by
  have hstart : c.startLoop t =
      { (c.setState .running).withLoop with guard := none }.answer t (.ok .done) := by
    rw [startLoop_eq]
    show ((c.setState .running).withLoop.release).answer t (.ok .done) = _
    rw [release_of_line (c := (c.setState .running).withLoop) h.line]
  rw [hstart]
  refine Calm.answer ?_
  have hback (u : TaskId) (task : Task)
      (hu : ({ (c.setState .running).withLoop with guard := none }.drop t).tasks[u]? = some task) :
      u ≠ t ∧ (u = c.nextTask ∧ task = ⟨.loop none, .turn⟩ ∨ c.tasks[u]? = some task) := by
    obtain ⟨hut, hu⟩ := drop_tasks_eq_some hu
    refine ⟨hut, ?_⟩
    by_cases hun : u = c.nextTask
    · subst hun
      exact .inl ⟨rfl, Option.some.inj
        (hu.symm.trans (withLoop_tasks_self (c.setState .running)))⟩
    · exact .inr ((withLoop_tasks_of_ne (c := c.setState .running) hun).symm.trans hu)
  -- no loop rolled beside the task, so the new one is the only one that can
  have hroll (l : TaskId)
      (hr : Rolls ({ (c.setState .running).withLoop with guard := none }.drop t) l) :
      l = c.nextTask := by
    obtain ⟨asked, wait, hl, hne⟩ := hr
    rcases hback l _ hl with ⟨hlt, ⟨hln, _⟩ | hl⟩
    · exact hln
    · exact absurd ⟨asked, wait, hl, hne⟩ (h.still l hlt)
  exact {
    line := h.line
    noLine := fun u task hu => by
      rcases hback u task hu with ⟨hut, ⟨_, rfl⟩ | hu⟩
      · exact Wait.noConfusion
      · exact h.noLine u task hut hu
    rolling := fun l _ => .inr ⟨rfl, rfl⟩
    unique := fun l l' hr hr' => (hroll l hr).trans (hroll l' hr').symm
    free := fun _ => .inr ⟨.inr (.inr rfl), hl⟩
    held := fun u task hu => by cases hu
    steps := h.steps }

lemma Alone.call {r : SimulatorRequest} {w : Wait} (h : Alone (c.timeline past) c t)
    (hsteps : StepsLoaded (c.timeline past) → StepsLoaded (.asked t r :: c.timeline past))
    (hw : w ≠ .inLine) (hp : Phase (.asked t r :: c.timeline past) c.state c.session (some w)) :
    Calm ((c.call t role r w).timeline past) (c.call t role r w) :=
  Alone.suspend (c := c.note (.sent t 0 r)) (h.congr (fun _ => rfl) rfl rfl hsteps) hw hp

lemma Alone.reset {result : Except Error Reply} (h : Alone (c.timeline past) c t) :
    Calm ((c.reset t role result).timeline past) (c.reset t role result) :=
  Alone.call (c := c.setState .stopped) (h.congr (fun _ => rfl) rfl rfl id) id Wait.noConfusion rfl

lemma Alone.sendStep (h : Alone (c.timeline past) c t) (hst : c.state = .running)
    (hl : c.session.IsLoaded (c.timeline past)) :
    Calm ((c.sendStep t role).timeline past) (c.sendStep t role) :=
  h.call (fun hsteps => ⟨hl.2, hsteps⟩) Wait.noConfusion ⟨hst, hl⟩

lemma Alone.failLoad {err : Error} (h : Alone (c.timeline past) c t) (hb : c.session.IsBlank) :
    Calm ((c.failLoad t err).timeline past) (c.failLoad t err) := by
  have hidle : Alone (((c.publish (.notice err.message)).setState .idle).timeline past)
      ((c.publish (.notice err.message)).setState .idle) t := h.congr (fun _ => rfl) rfl rfl id
  exact (hidle.release (.inl ⟨rfl, hb⟩)).1.answer

lemma Alone.load {goal : LoadGoal} (h : Alone (c.timeline past) c t) (hst : c.state = .idle)
    (hb : c.session.IsBlank) : Calm ((c.load t goal).timeline past) (c.load t goal) := by
  unfold Controller.load
  split
  · exact h.conclude (.inl ⟨hst, hb⟩)
  · exact Alone.call (c := c.setState .loading) (h.congr (fun _ => rfl) rfl rfl id) id
      Wait.noConfusion ⟨rfl, hb⟩

/-- Memory reads say nothing about the program. -/
lemma Alone.sendReads (pending : List PendingRead) (h : Alone (c.timeline past) c t) :
    Alone ((c.sendReads t pending).timeline past) (c.sendReads t pending) t ∧
      holdsProgram ((c.sendReads t pending).timeline past) = holdsProgram (c.timeline past) :=
  sendReads_induction (P := fun d => Alone (d.timeline past) d t ∧
    holdsProgram (d.timeline past) = holdsProgram (c.timeline past)) ⟨h, rfl⟩
    fun _ _ _ hd => ⟨hd.1.congr (fun _ => rfl) rfl rfl id, hd.2⟩

lemma Alone.refresh {next : AfterRefresh} (h : Alone (c.timeline past) c t)
    (hst : c.state = next.state)
    (hl : c.session.IsLoaded (c.timeline past)) :
    Calm ((c.refresh t role next).timeline past) (c.refresh t role next) := by
  obtain ⟨halone, hprogram⟩ := h.sendReads (pendingReads (refreshTargets c.session))
  have hsent := sendReads_eq c t (pendingReads (refreshTargets c.session))
  refine halone.suspend Wait.noConfusion ⟨?_, ?_, hprogram.trans hl.2⟩
  · rw [hsent]
    exact hst
  · rw [hsent]
    exact hl.1

/-! ## A loop at work without the guard -/

/-- A loop is at work, nobody has the guard, and no other loop rolls. -/
structure Roaming (log : List LogEntry) (c : Controller) (t : TaskId) : Prop where
  guard : c.guard = none
  line : c.line = []
  noLine : ∀ (u : TaskId) (task : Task), u ≠ t → c.tasks[u]? = some task → task.wait ≠ .inLine
  still : ∀ l, l ≠ t → ¬ Rolls c l
  state : c.state = .running
  loaded : c.session.IsLoaded log
  steps : StepsLoaded log

lemma Roaming.hold (h : Roaming log c t) : Alone log (c.hold t) t where
  guard := rfl
  line := h.line
  noLine := h.noLine
  still := h.still
  steps := h.steps

/-- A loop that would work alone with the guard can be left out where the guard is free. -/
lemma Alone.drop (h : Alone (c.timeline past) (c.hold t) t) (hg : c.guard = none)
    (hp : Phase (c.timeline past) c.state c.session none) : Calm (c.timeline past) (c.drop t) := by
  have hcalm := (Alone.release (c := c.hold t) h hp).1
  have hsame : { c.hold t with guard := none } = c := by
    rw [← hg]
    rfl
  rw [release_of_line h.line, hsame] at hcalm
  exact hcalm

lemma Roaming.drop (h : Roaming (c.timeline past) c t) : Calm (c.timeline past) (c.drop t) :=
  h.hold.drop h.guard (.inr ⟨.inr (.inr h.state), h.loaded⟩)

lemma Roaming.leaveLoop (h : Roaming (c.timeline past) c t) (halt : Halt) :
    Calm ((c.leaveLoop t halt).timeline past) (c.leaveLoop t halt) := by
  cases halt with
  | pause =>
    have hpaused : Alone ((c.setState .paused).timeline past) ((c.setState .paused).hold t) t :=
      h.hold.congr (fun _ => rfl) rfl rfl id
    exact (hpaused.drop h.guard (.inr ⟨.inr (.inl rfl), h.loaded⟩)).endLoop
  | stop => exact h.drop.endLoop

lemma Roaming.suspend {w : Wait} (h : Roaming (c.timeline past) c t) (hw : w ≠ .inLine) :
    Calm ((c.suspend t role w).timeline past) (c.suspend t role w) := by
  have hroll (l : TaskId) (hr : Rolls (c.suspend t role w) l) : l = t :=
    Decidable.byContradiction fun hlt => h.still l hlt (hr.of_suspend.resolve_left hlt)
  exact {
    line := h.line
    noLine := fun u task hu => by
      rcases suspend_tasks_eq_some hu with ⟨_, rfl⟩ | ⟨hut, hu⟩
      · exact hw
      · exact h.noLine u task hut hu
    rolling := fun l _ => .inr ⟨h.guard, h.state⟩
    unique := fun l l' hr hr' => (hroll l hr).trans (hroll l' hr').symm
    free := fun _ => .inr ⟨.inr (.inr h.state), h.loaded⟩
    held := fun u task hu => by
      have hnone : c.guard = some u := hu
      rw [h.guard] at hnone
      cases hnone
    steps := h.steps }

lemma Roaming.beginTurn {asked : Option Halt} (h : Roaming (c.timeline past) c t) :
    Calm ((c.beginTurn t asked).timeline past) (c.beginTurn t asked) := by
  cases asked with
  | some halt => exact h.leaveLoop halt
  | none =>
    exact Calm.congr (h.suspend Wait.noConfusion) (fun _ => .inl rfl) rfl rfl rfl ⟨id, rfl⟩ rfl id

lemma Roaming.afterDelay {asked : Option Halt} (h : Roaming (c.timeline past) c t) :
    Calm ((c.afterDelay t asked).timeline past) (c.afterDelay t asked) := by
  cases asked with
  | some halt => exact h.leaveLoop halt
  | none =>
    have hgo : c.afterDelay t none = (c.hold t).sendStep t (.loop none) := by
      unfold Controller.afterDelay
      rw [h.guard]
    rw [hgo]
    exact Alone.sendStep (c := c.hold t) h.hold h.state h.loaded

/-- A loop that gives the guard back between two turns roams. -/
lemma Alone.roaming (h : Alone (c.timeline past) c t) (hst : c.state = .running)
    (hl : c.session.IsLoaded (c.timeline past)) :
    Roaming (c.release.timeline past) c.release t := by
  rw [release_of_line h.line]
  exact {
    guard := rfl
    line := h.line
    noLine := h.noLine
    still := h.still
    state := hst
    loaded := hl
    steps := h.steps }

/-- A loop that rolls and waits for a turn or for its delay roams. -/
lemma Calm.roaming {task : Task} (h : Calm log c) (ht : c.tasks[t]? = some task) (hr : Rolls c t)
    (hw : task.wait = .turn ∨ task.wait = .asleep) : Roaming log c t := by
  obtain ⟨hg, hst⟩ : c.guard = none ∧ c.state = .running := by
    rcases h.rolling t hr with hg | hfree
    · -- a task that has the guard waits neither for a turn nor for a delay
      have hp := h.held t task hg ht
      rcases hw with hw | hw <;> rw [hw] at hp <;> exact hp.elim
    · exact hfree
  refine {
    guard := hg
    line := h.line
    noLine := fun u task _ hu => h.noLine u task hu
    still := fun l hne hl => hne (h.unique l t hl hr)
    state := hst
    loaded := ?_
    steps := h.steps }
  rcases h.free hg with ⟨hidle, _⟩ | ⟨_, hl⟩
  · rw [hst] at hidle
    cases hidle
  · exact hl

/-! ## Sections in course -/

lemma Alone.endTurn {asked : Option Halt} {verdict : StepVerdict} (h : Alone (c.timeline past) c t)
    (hst : c.state = .running) (hl : c.session.IsLoaded (c.timeline past)) :
    Calm ((c.endTurn t asked verdict).timeline past) (c.endTurn t asked verdict) := by
  have hpaused : Alone ((c.setState .paused).timeline past) (c.setState .paused) t :=
    h.congr (fun _ => rfl) rfl rfl id
  unfold Controller.endTurn
  split
  · exact (h.roaming hst hl).beginTurn
  · exact hpaused.conclude (.inr ⟨.inr (.inl rfl), hl⟩)

lemma Alone.afterRefresh {next : AfterRefresh} (h : Alone (c.timeline past) c t)
    (hst : c.state = next.state)
    (hl : c.session.IsLoaded (c.timeline past)) :
    Calm ((c.afterRefresh t role next).timeline past) (c.afterRefresh t role next) := by
  have htold : Alone (((c.publishOf ViewMessage.ofMemory).publishOf
      ViewMessage.ofWatches).timeline past)
      ((c.publishOf ViewMessage.ofMemory).publishOf ViewMessage.ofWatches) t :=
    h.congr (fun _ => rfl) rfl rfl id
  have hset (s : ExecutionState) : Alone ((((c.publishOf ViewMessage.ofMemory).publishOf
      ViewMessage.ofWatches).setState s).timeline past)
      (((c.publishOf ViewMessage.ofMemory).publishOf ViewMessage.ofWatches).setState s) t :=
    htold.congr (fun _ => rfl) rfl rfl id
  cases next with
  | load goal =>
    cases goal with
    | run => exact (hset .ready).startLoop hl
    | step => exact (hset .ready).conclude (.inr ⟨.inl rfl, hl⟩)
  | step verdict =>
    cases role with
    | request => exact (hset .paused).conclude (.inr ⟨.inr (.inl rfl), hl⟩)
    | loop asked => exact htold.endTurn hst hl

lemma isLoaded_storeRead {target : ReadTarget} {result : Except Error (List UInt8)}
    (h : s.IsLoaded log) : (storeRead s target result).IsLoaded log := by
  cases result with
  | error err => exact h
  | ok bytes =>
    cases target with
    | watch read => exact h
    | window range =>
      dsimp only [storeRead, Session.storeMemory]
      split <;> exact h

lemma Alone.afterRead {pending : List PendingRead} {next : AfterRefresh} {slot : Nat}
    {result : Except Error (List UInt8)} (h : Alone (c.timeline past) c t)
    (hs : slot ∈ pending.map (·.slot))
    (hp : Phase (c.timeline past) c.state c.session (some (.refresh pending next))) :
    Calm ((c.afterRead t role pending next slot result).timeline past)
      (c.afterRead t role pending next slot result) := by
  obtain ⟨hst, hl⟩ := hp
  obtain ⟨q, hq⟩ := find?_slot_eq_some hs
  have hstored : Alone ((c.withSession (storeRead · q.target result)).timeline past)
      (c.withSession (storeRead · q.target result)) t := h.congr (fun _ => rfl) rfl rfl id
  unfold Controller.afterRead
  rw [hq]
  dsimp only
  split
  · exact hstored.afterRefresh hst (isLoaded_storeRead hl)
  · exact hstored.suspend Wait.noConfusion ⟨hst, isLoaded_storeRead hl⟩

/-! ## Answers of the simulator -/

lemma Alone.afterBegin {goal : LoadGoal} {result : Except Error Unit}
    (h : Alone (c.timeline past) c t)
    (hp : Phase (c.timeline past) c.state c.session (some (.begin goal))) :
    Calm ((c.afterBegin t goal result).timeline past) (c.afterBegin t goal result) := by
  cases result with
  | error err => exact h.failLoad hp.2
  | ok => exact h.call id Wait.noConfusion hp

lemma Alone.afterReset {outcome : Except Error Reply} (h : Alone (c.timeline past) c t) :
    Calm ((c.afterReset t role outcome).timeline past) (c.afterReset t role outcome) :=
  Alone.conclude (h.congr (fun _ => rfl) rfl rfl id) (.inl ⟨rfl, Session.isBlank_clear _⟩)

/-- A load that brings a program ends a blank session, and one that fails leaves it. -/
lemma Alone.afterLoad {goal : LoadGoal} {result : Except Error LoadOutcome}
    (h : Alone (c.timeline past) c t)
    (hp : Phase (c.timeline past) c.state c.session (some (.load goal)))
    (hprogram : ∀ registers files, result = .ok (.loaded registers files) →
      holdsProgram (c.timeline past) = true) :
    Calm ((c.afterLoad t goal result).timeline past) (c.afterLoad t goal result) := by
  obtain ⟨hst, hb⟩ := hp
  cases result with
  | error err => exact h.failLoad hb
  | ok outcome =>
    cases outcome with
    | loaded registers files =>
      exact Alone.refresh (h.congr (fun _ => rfl) rfl rfl id) hst ⟨rfl, hprogram _ _ rfl⟩
    | failed files =>
      have htaken : Alone ((c.takeErrors files).timeline past) (c.takeErrors files) t ∧
          (c.takeErrors files).session = c.session.applyFailed files :=
        takeErrors_induction (P := fun d => Alone (d.timeline past) d t ∧
          d.session = c.session.applyFailed files) ⟨h.congr (fun _ => rfl) rfl rfl id, rfl⟩
          fun _ _ hd => ⟨hd.1.congr (fun _ => rfl) rfl rfl id, hd.2⟩
      -- a load that fails changes the errors of the session and nothing else
      have hblank : (c.session.applyFailed files).IsBlank := ⟨hb.1, hb.2, hb.3, hb.4⟩
      rw [← htaken.2] at hblank
      rw [afterLoad_failed]
      exact Alone.conclude (htaken.1.congr (fun _ => rfl) rfl rfl id) (.inl ⟨rfl, hblank⟩)

lemma isSome_registers_applyStep (s : Session) (next : RegisterSnapshot) :
    (s.applyStep next).1.registers.snapshot.isSome = true := by
  unfold Session.applyStep
  dsimp only
  split <;> rfl

lemma Alone.afterStep {result : Except Error RegisterSnapshot} (h : Alone (c.timeline past) c t)
    (hp : Phase (c.timeline past) c.state c.session (some .step)) :
    Calm ((c.afterStep t role result).timeline past) (c.afterStep t role result) := by
  obtain ⟨hst, hl⟩ := hp
  cases result with
  | error err =>
    exact Alone.reset (c := c.publish (.notice err.message)) (h.congr (fun _ => rfl) rfl rfl id)
  | ok next =>
    have htaken : Alone ((c.takeStep next).timeline past) (c.takeStep next) t ∧
        holdsProgram ((c.takeStep next).timeline past) = holdsProgram (c.timeline past) :=
      takeStep_induction (P := fun d => Alone (d.timeline past) d t ∧
        holdsProgram (d.timeline past) = holdsProgram (c.timeline past))
        ⟨h.congr (fun _ => rfl) rfl rfl id, rfl⟩
        fun _ _ hd => ⟨hd.1.congr (fun _ => rfl) rfl rfl id, hd.2⟩
    have htook := takeStep_eq c next
    rw [afterStep_ok]
    split
    · exact htaken.1.reset
    · refine htaken.1.refresh ?_ ⟨?_, htaken.2.trans hl.2⟩
      · rw [htook]
        exact hst
      · rw [htook]
        exact isSome_registers_applyStep c.session next

lemma Alone.afterWindow {range : AddressRange} {result : Except Error (List UInt8)}
    (h : Alone (c.timeline past) c t)
    (hp : Phase (c.timeline past) c.state c.session (some (.windowRead range))) :
    Calm ((c.afterWindow t range result).timeline past) (c.afterWindow t range result) := by
  obtain ⟨hst, hl⟩ := hp
  have hstored : Alone ((c.withSession (storeRead · (.window range) result)).timeline past)
      (c.withSession (storeRead · (.window range) result)) t := h.congr (fun _ => rfl) rfl rfl id
  -- the window is read between steps, and the state is what it was before
  have hphase :
      Phase (c.timeline past) c.state (storeRead c.session (.window range) result) none := by
    rcases hst with hst | hst
    · exact .inr ⟨.inl hst, isLoaded_storeRead hl⟩
    · exact .inr ⟨.inr (.inl hst), isLoaded_storeRead hl⟩
  have hfree := (hstored.release hphase).1
  exact Calm.answer (hfree.congr (fun _ => .inl rfl) rfl rfl rfl ⟨id, rfl⟩ rfl id)

end Controller
end SicDebugger
