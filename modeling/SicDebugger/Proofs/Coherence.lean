import SicDebugger.Proofs.Calm

/-!
# State and session

Where nobody has the guard, an idle controller has a blank session, one that is ready or paused has
the registers of a program, and a step is only sent while there is a program. This holds in every
run until a reset overtakes a loop: a pause takes the handle away before its loop has ended, so a
stop that follows finds no loop to wait for and resets at once. The loop goes on after the reset,
and then all three can fail. Up to such a reset, and only up to there, state and session are
coherent.
-/

namespace SicDebugger

namespace Controller

variable {log past : List LogEntry} {c d found : Controller} {t l : TaskId} {role : Role}
  {e : Event}

/-- State and session are coherent. -/
structure Coherent (log : List LogEntry) (c : Controller) : Prop where
  /-- An idle controller has nothing. -/
  idle : c.guard = none → c.state = .idle → c.session.IsBlank
  /-- A controller that can step has registers, and a program was loaded since the last begin. -/
  ready : c.guard = none → c.state = .ready ∨ c.state = .paused → c.session.IsLoaded log
  /-- Every step was sent with a program loaded since the last begin. -/
  steps : StepsLoaded log

/-- Where nobody has the guard, every loop waits for a turn or for its delay. -/
def LoopsWait (c : Controller) : Prop :=
  c.guard = none → ∀ (l : TaskId) (asked : Option Halt) (w : Wait),
    c.tasks[l]? = some ⟨.loop asked, w⟩ → w = .turn ∨ w = .asleep

/-- A reset is under way while another loop lives that was not told to stop. -/
def Overtaken (c : Controller) : Prop :=
  ∃ t role outcome l, c.guard = some t ∧ c.tasks[t]? = some ⟨role, .reset outcome⟩ ∧ l ≠ t ∧
    Rolls c l

/-- A reset has only just overtaken a loop, which waits for a turn or for its delay. -/
def Overtaking (log : List LogEntry) (c : Controller) : Prop :=
  ∃ t outcome l asked w, c.guard = some t ∧ c.tasks[t]? = some ⟨.request, .reset outcome⟩ ∧
    c.line = [] ∧ l ≠ t ∧ c.tasks[l]? = some ⟨.loop asked, w⟩ ∧ asked ≠ some .stop ∧
    (w = .turn ∨ w = .asleep) ∧ holdsProgram log = false

lemma Calm.coherent (h : Calm log c) : Coherent log c where
  idle hg hst := by
    rcases h.free hg with ⟨_, hb⟩ | ⟨hother, _⟩
    · exact hb
    · rw [hst] at hother
      rcases hother with hother | hother | hother <;> cases hother
  ready hg hst := by
    rcases h.free hg with ⟨hidle, _⟩ | ⟨_, hl⟩
    · rw [hidle] at hst
      rcases hst with hst | hst <;> cases hst
    · exact hl
  steps := h.steps

lemma Calm.not_overtaken (h : Calm log c) : ¬ c.Overtaken := by
  rintro ⟨t, _, _, l, hg, _, hne, hr⟩
  exact (h.alone hg).still l hne hr

lemma Overtaking.overtaken (h : Overtaking log c) : c.Overtaken := by
  obtain ⟨t, outcome, l, asked, w, hg, ht, _, hne, hl, hasked, _⟩ := h
  exact ⟨t, _, outcome, l, hg, ht, hne, asked, w, hl, hasked⟩

/-! ## A task at work without the guard -/

/-- A task that does not have the guard can be left out. -/
lemma Calm.drop (h : Calm log c) : Calm log (c.drop t) where
  line := h.line
  noLine u task hu := h.noLine u task (drop_tasks_eq_some hu).2
  rolling l hr := h.rolling l hr.of_drop.2
  unique l l' hr hr' := h.unique l l' hr.of_drop.2 hr'.of_drop.2
  free := h.free
  held u task hu htask := h.held u task hu (drop_tasks_eq_some htask).2
  steps := h.steps

/-- A request can wait for what is not a place in line. -/
lemma Calm.suspend {w : Wait} (h : Calm (c.timeline past) (c.drop t)) (hw : w ≠ .inLine)
    (hg : c.guard ≠ some t) :
    Calm ((c.suspend t .request w).timeline past) (c.suspend t .request w) := by
  have hback (u : TaskId) (task : Task) (hu : (c.suspend t .request w).tasks[u]? = some task) :
      u = t ∧ task = ⟨.request, w⟩ ∨ (c.drop t).tasks[u]? = some task := by
    rcases suspend_tasks_eq_some hu with hself | ⟨hut, hu⟩
    · exact .inl hself
    · exact .inr ((drop_tasks_of_ne hut).trans hu)
  have hroll (l : TaskId) (hr : Rolls (c.suspend t .request w) l) : Rolls (c.drop t) l := by
    obtain ⟨asked, wait, hl, hne⟩ := hr
    rcases hback l _ hl with ⟨_, hself⟩ | hl
    · cases hself
    · exact ⟨asked, wait, hl, hne⟩
  exact {
    line := h.line
    noLine := fun u task hu => by
      rcases hback u task hu with ⟨_, rfl⟩ | hu
      · exact hw
      · exact h.noLine u task hu
    rolling := fun l hr => h.rolling l (hroll l hr)
    unique := fun l l' hr hr' => h.unique l l' (hroll l hr) (hroll l' hr')
    free := h.free
    held := fun u task hu htask => by
      rcases hback u task htask with ⟨rfl, _⟩ | htask
      · exact absurd hu hg
      · exact h.held u task hu htask
    steps := h.steps }

/-- Where nobody has the guard and no loop rolls, a task can take it. -/
lemma Calm.hold (h : Calm log (c.drop t)) (hstill : ∀ l, l ≠ t → ¬ Rolls c l) :
    Alone log (c.hold t) t where
  guard := rfl
  line := h.line
  noLine u task hut hu := by
    exact h.noLine u task ((drop_tasks_of_ne hut).trans hu)
  still := hstill
  steps := h.steps

/-- No loop rolls where nobody has the guard and the state is not that of a run. -/
lemma Calm.still (h : Calm log (c.drop t)) (hg : c.guard = none) (hst : c.state ≠ .running)
    (l : TaskId) (hlt : l ≠ t) : ¬ Rolls c l := by
  rintro ⟨asked, wait, hl, hne⟩
  have hr : Rolls (c.drop t) l := ⟨asked, wait, (drop_tasks_of_ne hlt).trans hl, hne⟩
  rcases h.rolling l hr with hguard | ⟨_, hrun⟩
  · have hguard' : c.guard = some l := hguard
    rw [hg] at hguard'
    cases hguard'
  · exact hst hrun

/-- A request that is refused with the guard gives it back. -/
lemma Calm.refuse {result : Except Error Reply} (h : Calm (c.timeline past) (c.drop t))
    (hg : c.guard = none) :
    Calm (((c.hold t).conclude t .request result).timeline past)
      ((c.hold t).conclude t .request result) := by
  show Calm (((c.hold t).release.answer t result).timeline past)
    ((c.hold t).release.answer t result)
  rw [release_of_line (c := c.hold t) h.line]
  exact Calm.answer (c := { c.hold t with guard := none })
    (h.congr (fun _ => .inl rfl) hg.symm rfl rfl ⟨id, rfl⟩ rfl id)

/-- A request that needs the guard is refused or carried out with it. -/
lemma Calm.guarded {go : Controller → Controller} (h : Calm (c.timeline past) (c.drop t))
    (hgo : c.guard = none → Calm ((go (c.hold t)).timeline past) (go (c.hold t))) :
    Calm ((c.guarded t go).timeline past) (c.guarded t go) := by
  unfold Controller.guarded
  split
  · exact h.answer
  · next hg => exact hgo hg

/-- The session of an idle controller is blank, and that of one that can step is loaded. -/
lemma Calm.session (h : Calm log (c.drop t)) (hg : c.guard = none) :
    (c.state = .idle → c.session.IsBlank) ∧
    (c.state = .ready ∨ c.state = .paused → c.session.IsLoaded log) ∧ c.state ≠ .stopped := by
  have hcoherent := h.coherent
  refine ⟨hcoherent.idle hg, hcoherent.ready hg, fun hst => ?_⟩
  have hst' : (c.drop t).state = .stopped := hst
  rcases h.free hg with ⟨hidle, _⟩ | ⟨hother, _⟩
  · rw [hst'] at hidle
    cases hidle
  · rw [hst'] at hother
    rcases hother with hother | hother | hother <;> cases hother

lemma Calm.run (h : Calm (c.timeline past) (c.drop t)) :
    Calm ((c.run t).timeline past) (c.run t) := by
  refine h.guarded fun hg => ?_
  obtain ⟨hblank, hloaded, hstopped⟩ := h.session hg
  have halone (hst : c.state ≠ .running) : Alone ((c.hold t).timeline past) (c.hold t) t :=
    h.hold (h.still hg hst)
  have hstate : (c.hold t).state = c.state := rfl
  cases hst : (c.hold t).state with
  | running | loading => exact h.refuse hg
  | idle => exact (halone (by rw [← hstate, hst]; decide)).load hst (hblank hst)
  | stopped => exact absurd hst hstopped
  | ready => exact (halone (by rw [← hstate, hst]; decide)).startLoop (hloaded (.inl hst))
  | paused => exact (halone (by rw [← hstate, hst]; decide)).startLoop (hloaded (.inr hst))

lemma Calm.step (h : Calm (c.timeline past) (c.drop t)) :
    Calm ((c.step t).timeline past) (c.step t) := by
  refine h.guarded fun hg => ?_
  obtain ⟨hblank, hloaded, hstopped⟩ := h.session hg
  have halone (hst : c.state ≠ .running) : Alone ((c.hold t).timeline past) (c.hold t) t :=
    h.hold (h.still hg hst)
  have hrun (hst : c.state ≠ .running) :
      Alone (((c.hold t).setState .running).timeline past) ((c.hold t).setState .running) t :=
    (halone hst).congr (fun _ => rfl) rfl rfl id
  have hstate : (c.hold t).state = c.state := rfl
  cases hst : (c.hold t).state with
  | running | loading => exact h.refuse hg
  | idle => exact (halone (by rw [← hstate, hst]; decide)).load hst (hblank hst)
  | stopped => exact absurd hst hstopped
  | ready => exact (hrun (by rw [← hstate, hst]; decide)).sendStep rfl (hloaded (.inl hst))
  | paused => exact (hrun (by rw [← hstate, hst]; decide)).sendStep rfl (hloaded (.inr hst))

/-- The reset of a stop overtakes a loop that rolls. -/
lemma Calm.stopNow (h : Calm (c.timeline past) (c.drop t))
    (hwaits : LoopsWait c) :
    Calm ((c.stopNow t).timeline past) (c.stopNow t) ∨
      Overtaking ((c.stopNow t).timeline past) (c.stopNow t) := by
  unfold Controller.stopNow Controller.guarded
  split
  · exact .inl h.answer
  · next hg =>
    by_cases hroll : ∃ l, l ≠ t ∧ Rolls c l
    · -- the stop has found no handle, but the loop lives
      obtain ⟨l, hne, asked, w, hl, hasked⟩ := hroll
      refine .inr ⟨t, .ok .done, l, asked, w, rfl, Std.ExtTreeMap.getElem?_insert_self, h.line, hne,
        ?_, hasked, hwaits hg l asked w hl, rfl⟩
      exact (getElem?_insert_of_ne hne).trans hl
    · refine .inl (Alone.reset (h.hold fun l hne hr => hroll ⟨l, hne, hr⟩))

/-- A request that halts a loop waits for its end, or goes on by itself without the handle. -/
lemma Calm.haltLoop {halt : Halt} {otherwise : Controller → Controller}
    {P : Controller → Prop} (h : Calm (c.timeline past) (c.drop t)) (hg : c.guard ≠ some t)
    (hcalm : ∀ d, Calm (d.timeline past) d → P d)
    (hgo : Calm ({ c with handle := none }.timeline past) ({ c with handle := none }.drop t) →
      P (otherwise { c with handle := none })) :
    P (c.haltLoop t halt otherwise) := by
  have htaken : Calm ({ c with handle := none }.timeline past) ({ c with handle := none }.drop t) :=
    h.congr (fun _ => .inl rfl) rfl rfl rfl ⟨id, rfl⟩ rfl id
  unfold Controller.haltLoop
  split
  · next loop _ =>
    split
    · have hasked := askHalt_eq { c with handle := none } loop halt
      have htimeline := askHalt_timeline { c with handle := none } loop halt past
      refine hcalm _ (Calm.suspend ?_ Wait.noConfusion (by rw [hasked]; exact hg))
      refine htaken.congr (fun u => ?_) (by rw [hasked]; rfl) (by rw [hasked]; rfl)
        (by rw [hasked]; rfl) ?_ ?_ ?_
      · by_cases hut : u = t
        · rw [hut, drop_tasks_self, drop_tasks_self]
          exact .inl rfl
        · rw [drop_tasks_of_ne hut, drop_tasks_of_ne hut]
          exact askHalt_kept _ loop halt u
      · rw [hasked]
        exact ⟨id, rfl⟩
      · rcases htimeline with hsame | hwoken
        · rw [hsame]
        · rw [hwoken]
          rfl
      · rcases htimeline with hsame | hwoken
        · rw [hsame]
          exact id
        · rw [hwoken]
          exact id
    · exact hgo htaken
  · exact hgo htaken

lemma Calm.pause (h : Calm (c.timeline past) (c.drop t)) (hg : c.guard ≠ some t) :
    Calm ((c.pause t).timeline past) (c.pause t) := by
  refine h.haltLoop (P := fun d => Calm (d.timeline past) d) hg (fun _ hd => hd) fun htaken => ?_
  dsimp only
  split <;> exact htaken.answer

lemma Calm.stop (h : Calm (c.timeline past) (c.drop t)) (hg : c.guard ≠ some t)
    (hwaits : LoopsWait c) :
    Calm ((c.stop t).timeline past) (c.stop t) ∨
      Overtaking ((c.stop t).timeline past) (c.stop t) :=
  h.haltLoop (P := fun d => Calm (d.timeline past) d ∨ Overtaking (d.timeline past) d) hg
    (fun _ hd => .inl hd) fun htaken => htaken.stopNow hwaits

/-! ## Requests that change the session -/

/-- A session that is as blank and as loaded as before can be taken. -/
lemma Calm.withSession {f : Session → Session} (h : Calm (c.timeline past) (c.drop t))
    (hs : c.session.Alike (f c.session)) :
    Calm ((c.withSession f).timeline past) ((c.withSession f).drop t) :=
  h.congr (fun _ => .inl rfl) rfl rfl rfl hs rfl id

lemma Calm.publish {m : ViewMessage} (h : Calm (c.timeline past) (c.drop t)) :
    Calm ((c.publish m).timeline past) ((c.publish m).drop t) :=
  h.congr (fun _ => .inl rfl) rfl rfl rfl ⟨id, rfl⟩ rfl id

lemma alike_toggle (s : Session) (file : String) (row : UInt64) :
    s.Alike { s with listings := s.listings.toggle file row } where
  blank h := by
    refine { h with listings := ?_ }
    unfold ListingIndex.toggle
    split
    · exact h.listings
    · exact h.listings
  registers := rfl

lemma alike_select {s : Session} {file : String} {listings : ListingIndex}
    (h : s.listings.select? file = some listings) : s.Alike { s with listings } where
  blank hb := by
    obtain ⟨i, _, rfl⟩ := Option.map_eq_some_iff.mp h
    exact { hb with listings := hb.listings }
  registers := rfl

lemma alike_setWindow (s : Session) (range : AddressRange) : s.Alike (s.setWindow range) where
  blank h := { h with memory := rfl }
  registers := rfl

lemma Calm.setWindow {first last : UInt32} (h : Calm (c.timeline past) (c.drop t)) :
    Calm ((c.setWindow t first last).timeline past) (c.setWindow t first last) := by
  unfold Controller.setWindow
  split
  · exact h.answer
  · next range _ =>
    have hs : Calm ((c.withSession (·.setWindow range)).timeline past)
        ((c.withSession (·.setWindow range)).drop t) := h.withSession (alike_setWindow _ range)
    dsimp only
    split
    · next hfree =>
      obtain ⟨hbetween, hg⟩ := hfree
      obtain ⟨_, hloaded, _⟩ := hs.session hg
      have hst : c.state = .ready ∨ c.state = .paused := by
        revert hbetween
        show betweenSteps c.state = true → _
        cases c.state <;> simp [betweenSteps]
      have hstill := hs.still hg (by
        show c.state ≠ .running
        rcases hst with hst | hst <;> rw [hst] <;> decide)
      exact (hs.hold hstill).call id Wait.noConfusion ⟨hst, hloaded hst⟩
    · exact hs.publish.answer

/-! ## Requests -/

/-- A request of a view keeps a controller calm, unless it is a stop that overtakes a loop. -/
lemma Calm.request {r : ViewRequest} (h : Calm (c.timeline past) c)
    (hg : c.guard ≠ some c.nextTask) (hwaits : LoopsWait c) :
    Calm ((c.request r).timeline past) (c.request r) ∨
      Overtaking ((c.request r).timeline past) (c.request r) := by
  have hdrop : Calm ({ c with nextTask := c.nextTask + 1 }.timeline past)
      ({ c with nextTask := c.nextTask + 1 }.drop c.nextTask) :=
    (h.drop (t := c.nextTask)).congr (fun _ => .inl rfl) rfl rfl rfl ⟨id, rfl⟩ rfl id
  unfold Controller.request
  cases r with
  | run => exact .inl hdrop.run
  | step => exact .inl hdrop.step
  | pause => exact .inl (hdrop.pause hg)
  | stop => exact hdrop.stop hg hwaits
  | toggleBreakpoint file row =>
    exact .inl (hdrop.withSession (alike_toggle _ file row)).publish.answer
  | selectListing file =>
    refine .inl ?_
    dsimp only [selectListing]
    split
    · next listings hselect => exact (hdrop.withSession (alike_select hselect)).publish.answer
    · exact hdrop.answer
  | setDelay ms =>
    refine .inl ?_
    dsimp only [setDelay]
    split
    · exact Calm.answer (hdrop.congr (fun _ => .inl rfl) rfl rfl rfl ⟨id, rfl⟩ rfl id)
    · exact hdrop.answer
  | setWindow first last => exact .inl hdrop.setWindow
  | check texts names =>
    refine .inl ?_
    dsimp only [check]
    split
    · exact hdrop.answer
    · refine Calm.suspend ?_ Wait.noConfusion hg
      exact hdrop.congr (fun _ => .inl rfl) rfl rfl rfl ⟨id, rfl⟩ rfl id
  | queryState => exact .inl hdrop.answer

/-! ## All events -/

lemma Calm.loopsWait (h : Calm log c) (hs : Sound c) (ho : Disciplined log c) : LoopsWait c := by
  intro hg l asked w hl
  have hfits := hs.fits l _ hl
  have hout (hin : w.isInSection = true) : False := by
    have hguard := ho.inSection l _ hl hin
    rw [hg] at hguard
    cases hguard
  cases w with
  | turn => exact .inl rfl
  | asleep => exact .inr rfl
  | inLine => exact absurd rfl (h.noLine l _ hl)
  | begin | load | step | refresh | reset | windowRead => exact (hout rfl).elim
  | check | loopEnd => cases hfits

/-- Where nobody has the guard, a task that waits for a turn or for its delay leaves or goes on. -/
lemma Calm.resume {task : Task} (h : Calm (c.timeline past) c)
    (ht : c.tasks[t]? = some task) (hd : c.resume? t task = some d)
    (hwaits : LoopsWait c) :
    Calm (d.timeline past) d ∨ Overtaking (d.timeline past) d := by
  have hroams (asked : Option Halt) (w : Wait) (ht : c.tasks[t]? = some ⟨.loop asked, w⟩)
      (hw : w = .turn ∨ w = .asleep) : asked ≠ some .stop → Roaming (c.timeline past) c t :=
    fun hne => h.roaming ht ⟨asked, w, ht, hne⟩ hw
  rcases resume?_eq_some hd with ⟨asked, rfl, rfl⟩ | ⟨asked, rfl, rfl⟩ | ⟨asked, rfl, hg, rfl⟩ |
    ⟨_, loop, halt, rfl, _, rfl⟩
  · refine .inl ?_
    by_cases hstop : asked = some .stop
    · subst hstop
      exact h.drop.endLoop
    · exact (hroams asked _ ht (.inl rfl) hstop).beginTurn
  · refine .inl ?_
    by_cases hstop : asked = some .stop
    · subst hstop
      exact h.drop.endLoop
    · exact (hroams asked _ ht (.inr rfl) hstop).afterDelay
  · exact absurd rfl (h.noLine t _ ht)
  · cases halt with
    | pause => exact .inl h.drop.answer
    | stop => exact h.drop.stopNow hwaits

/-- An event keeps a controller calm, unless it is the reset of a stop that overtakes a loop. -/
theorem Calm.perform (hc : c = { found with history := [] }) (hs : Sound c)
    (ho : Disciplined log c) (h : Calm log c) (hd : c.perform? e = some d) :
    Calm (d.timeline (.event found e :: log)) d ∨
      Overtaking (d.timeline (.event found e :: log)) d := by
  have htime (log : List LogEntry) : log = c.timeline log := by rw [hc]; rfl
  have hwaits : LoopsWait c := h.loopsWait hs ho
  have hsteps : StepsLoaded (.event found e :: log) ↔ StepsLoaded log := by
    cases e <;> rfl
  -- the answer to a call finds its task at work alone
  have harrive {t : TaskId} {role : Role} {w : Wait} (ht : c.tasks[t]? = some ⟨role, w⟩)
      (hw : w.isInSection = true) : Alone (c.timeline (.event found e :: log)) c t ∧
        Phase log c.state c.session (some w) := by
    have hg : c.guard = some t := ho.inSection t _ ht hw
    rw [← htime]
    exact ⟨(h.alone hg).congr (fun _ => rfl) rfl rfl hsteps.mpr, h.held t _ hg ht⟩
  have hkeep {w : Option Wait} (hw : Phase log c.state c.session w)
      (hp : holdsProgram (.event found e :: log) = holdsProgram log) :
      Phase (c.timeline (.event found e :: log)) c.state c.session w := by
    rw [← htime]
    exact hw.alike ⟨id, rfl⟩ hp
  have hquiet (hp : holdsProgram (.event found e :: log) = holdsProgram log) :
      Calm (c.timeline (.event found e :: log)) c := by
    rw [← htime]
    exact h.congr (fun _ => .inl rfl) rfl rfl rfl ⟨id, rfl⟩ hp hsteps.mpr
  cases e with
  | request r =>
    cases hd
    refine (hquiet rfl).request (fun hg => ?_) hwaits
    obtain ⟨task, ht, _⟩ := ho.holder _ hg
    rw [hs.nextTask_free] at ht
    cases ht
  | resumed t =>
    obtain ⟨task, ht, hd⟩ := perform?_resumed hd
    exact (hquiet rfl).resume ht hd hwaits
  | began t result =>
    rcases perform?_began hd with ⟨role, goal, ht, rfl⟩ | ⟨role, outcome, ht, rfl⟩
    · obtain ⟨halone, hp⟩ := harrive ht rfl
      exact .inl (halone.afterBegin (hkeep hp rfl))
    · obtain ⟨halone, _⟩ := harrive ht rfl
      exact .inl halone.afterReset
  | loaded t result =>
    obtain ⟨role, goal, ht, rfl⟩ := perform?_loaded hd
    obtain ⟨halone, hst, hb⟩ := harrive ht rfl
    refine .inl (halone.afterLoad ⟨hst, hb⟩ ?_)
    rintro registers files rfl
    rw [← htime]
    rfl
  | stepped t result =>
    obtain ⟨role, ht, rfl⟩ := perform?_stepped hd
    obtain ⟨halone, hp⟩ := harrive ht rfl
    exact .inl (halone.afterStep (hkeep hp rfl))
  | read t slot result =>
    rcases perform?_read hd with ⟨role, pending, next, ht, hslot, rfl⟩ |
      ⟨role, range, ht, rfl, rfl⟩
    · obtain ⟨halone, hp⟩ := harrive ht rfl
      exact .inl (halone.afterRead hslot (hkeep hp rfl))
    · obtain ⟨halone, hp⟩ := harrive ht rfl
      exact .inl (halone.afterWindow (hkeep hp rfl))
  | checked t result =>
    obtain ⟨role, ht, rfl⟩ := perform?_checked hd
    have hdrop : Calm (c.timeline (.event found (.checked t result) :: log)) (c.drop t) :=
      (hquiet rfl).drop
    refine .inl ?_
    cases result with
    | error err => exact hdrop.answer
    | ok files =>
      refine (Calm.withSession hdrop ⟨fun hb => ?_, rfl⟩).publish.answer
      exact { hb with }

/-! ## After a reset has overtaken a loop -/

/-- A loop goes on after the reset that has overtaken it. -/
structure Stray (log : List LogEntry) (c : Controller) (l : TaskId) (asked : Option Halt)
    (w : Wait) : Prop where
  guard : c.guard = none
  session : c.session.IsBlank
  program : holdsProgram log = false
  loop : c.tasks[l]? = some ⟨.loop asked, w⟩

lemma afterReset_of_line {outcome : Except Error Reply} (h : c.line = []) :
    c.afterReset t .request outcome = { c with
      session := c.session.clear
      state := .idle
      guard := none
      tasks := c.tasks.erase t
      history := .answered t outcome :: .published (.state .idle) ::
        .published (.ofMemory c.session.clear) :: .published (.ofWatches c.session.clear) ::
        .published (.ofListings c.session.clear) :: .published (.ofRegisters c.session.clear) ::
        c.history } := by
  let told := (((((c.withSession Session.clear).publishOf ViewMessage.ofRegisters).publishOf
    ViewMessage.ofListings).publishOf ViewMessage.ofWatches).publishOf
    ViewMessage.ofMemory).setState .idle
  show told.release.answer t outcome = _
  rw [release_of_line (c := told) h]
  rfl

/-- The reset comes to its end. -/
lemma Overtaking.stray (h : Overtaking log c) : ∃ more d l asked w, Run c more d ∧
    Stray (more ++ log) d l asked w ∧ asked ≠ some .stop ∧ (w = .turn ∨ w = .asleep) := by
  obtain ⟨t, outcome, l, asked, w, _, ht, hline, hne, hl, hasked, hw, hp⟩ := h
  have hd : { c with history := [] }.perform? (.began t (.ok ())) =
      some ({ c with history := [] }.afterReset t .request outcome) := by
    have ht' : { c with history := [] }.tasks[t]? = some ⟨.request, .reset outcome⟩ := ht
    rw [perform?, ht']
  rw [afterReset_of_line (c := { c with history := [] }) hline] at hd
  refine ⟨_, _, l, asked, w, .single hd, ⟨rfl, Session.isBlank_clear _, hp, ?_⟩, hasked, hw⟩
  exact (drop_tasks_of_ne (c := c) hne).trans hl

/-- A loop that was asked to pause says so although nothing is loaded. -/
lemma Stray.paused {w : Wait} (h : Stray log c l (some .pause) w) (hw : w = .turn ∨ w = .asleep) :
    ∃ more d, Run c more d ∧ ¬ Coherent (more ++ log) d := by
  have hl : { c with history := [] }.tasks[l]? = some ⟨.loop (some .pause), w⟩ := h.loop
  have hd : { c with history := [] }.perform? (.resumed l) =
      some ((({ c with history := [] } : Controller).setState .paused).endLoop l) := by
    rw [perform?, hl]
    rcases hw with rfl | rfl <;> rfl
  refine ⟨_, _, .single hd, fun hcoherent => ?_⟩
  have hloaded := hcoherent.ready
    (show ((({ c with history := [] } : Controller).setState .paused).endLoop l).guard = none by
      rw [endLoop_eq]; exact h.guard)
    (show ((({ c with history := [] } : Controller).setState .paused).endLoop l).state = .ready ∨
      ((({ c with history := [] } : Controller).setState .paused).endLoop l).state = .paused by
      rw [endLoop_eq]; exact .inr rfl)
  have hregisters := hloaded.1
  rw [show Controller.session _ = _ from endLoop_session _ l] at hregisters
  rw [show ((({ c with history := [] } : Controller).setState .paused).session.registers.snapshot) =
    none from h.session.registers] at hregisters
  cases hregisters

/-- A loop that nobody has asked to halt sends a step although nothing is loaded. -/
lemma Stray.stepped (h : Stray log c l none .asleep) :
    ∃ more d, Run c more d ∧ ¬ Coherent (more ++ log) d := by
  have hl : { c with history := [] }.tasks[l]? = some ⟨.loop none, .asleep⟩ := h.loop
  have hd : { c with history := [] }.perform? (.resumed l) =
      some ((({ c with history := [] } : Controller).hold l).sendStep l (.loop none)) := by
    rw [perform?, hl]
    show some (Controller.afterDelay _ l none) = _
    unfold Controller.afterDelay
    rw [show Controller.guard _ = none from h.guard]
  refine ⟨_, _, .single hd, fun hcoherent => ?_⟩
  have hprogram : holdsProgram log = true := hcoherent.steps.1
  rw [h.program] at hprogram
  cases hprogram

/-- Whatever the loop waits for, coherence can be lost. -/
lemma Stray.incoherent {asked : Option Halt} {w : Wait} (h : Stray log c l asked w)
    (hasked : asked ≠ some .stop) (hw : w = .turn ∨ w = .asleep) :
    ∃ more d, Run c more d ∧ ¬ Coherent (more ++ log) d := by
  match asked, w, hw with
  | some .stop, _, _ => exact absurd rfl hasked
  | some .pause, _, hw => exact h.paused hw
  | none, _, .inr rfl => exact h.stepped
  | none, _, .inl rfl =>
    -- the loop sleeps first, and steps when it wakes
    have hl : { c with history := [] }.tasks[l]? = some ⟨.loop none, .turn⟩ := h.loop
    let next := ({ c with history := [] } : Controller).beginTurn l none
    have hd : { c with history := [] }.perform? (.resumed l) = some next := by
      rw [perform?, hl]
      rfl
    have hasleep : Stray (next.timeline [.event c (.resumed l)] ++ log)
        { next with history := next.history ++ c.history } l none .asleep :=
      ⟨h.guard, h.session, h.program, Std.ExtTreeMap.getElem?_insert_self⟩
    obtain ⟨more, d, hmore, hlost⟩ := hasleep.stepped
    exact ⟨_, d, (Run.single hd).append hmore, by rwa [List.append_assoc]⟩

/-! ## All runs -/

/-- No event of the log has found a loop overtaken. -/
def NoneOvertaken (log : List LogEntry) : Prop :=
  ∀ found e, .event found e ∈ log → ¬ found.Overtaken

/-- Up to the first reset that overtakes a loop a controller is calm. -/
lemma calm_or_overtaking {settings : ControllerSettings} (h : Run (.ofSettings settings) log c)
    (hfree : NoneOvertaken log) : Calm log c ∨ Overtaking log c := by
  suffices hall : Sound c ∧ Disciplined log c ∧
      (NoneOvertaken log → Calm log c ∨ Overtaking log c) by
    exact hall.2.2 hfree
  refine h.invariant (P := fun log c => Sound c ∧ Disciplined log c ∧
    (NoneOvertaken log → Calm log c ∨ Overtaking log c)) ?_
    ⟨sound_of_run .start, disciplined_of_run .start, fun _ => .inl ?_⟩ ?_
  · rintro log c history ⟨hs, ho, hcalm⟩
    refine ⟨hs.forget history, ho.forget history, fun hfree => ?_⟩
    rcases hcalm hfree with hcalm | hover
    · exact .inl (hcalm.forget history)
    · exact .inr hover
  · exact {
      line := rfl
      noLine := fun u task hu => by simp [ofSettings] at hu
      rolling := fun l hr => by
        obtain ⟨_, _, hl, _⟩ := hr
        simp [ofSettings] at hl
      unique := fun l _ hr => by
        obtain ⟨_, _, hl, _⟩ := hr
        simp [ofSettings] at hl
      free := fun _ => .inl ⟨rfl, rfl, rfl, rfl, rfl⟩
      held := fun u task hu => by cases hu
      steps := trivial }
  · rintro log c e d found hc ⟨hs, ho, hcalm⟩ hd
    refine ⟨hs.perform hd, ho.perform hc hd, fun hfree => ?_⟩
    have hmem (x : LogEntry) (hx : x ∈ LogEntry.event found e :: log) :
        x ∈ d.timeline (.event found e :: log) := List.mem_append_right _ hx
    rcases hcalm fun found e he => hfree found e (hmem _ (.tail _ he)) with hcalm | hover
    · exact hcalm.perform hc hs ho hd
    · -- an event that finds a loop overtaken is in the log
      refine absurd ?_ (hfree found e (hmem _ (.head _)))
      have hover' := hover.overtaken
      rw [hc] at hover'
      exact hover'

/-- As long as no reset overtakes a loop, state and session are coherent. Once one does, it can come
to a controller that is idle or paused with the wrong session, or to a step without a program. -/
theorem coherent_unless_overtaken {settings : ControllerSettings}
    (h : Run (.ofSettings settings) log c)
    (hfree : ∀ found e, .event found e ∈ log → ¬ found.Overtaken) :
    (¬ c.Overtaken → Coherent log c) ∧
      (c.Overtaken → ∃ more d, Run c more d ∧ ¬ Coherent (more ++ log) d) := by
  rcases calm_or_overtaking h hfree with hcalm | hover
  · exact ⟨fun _ => hcalm.coherent, fun hover => absurd hover hcalm.not_overtaken⟩
  · refine ⟨fun hnot => absurd hover.overtaken hnot, fun _ => ?_⟩
    obtain ⟨more, d, l, asked, w, hrun, hstray, hasked, hw⟩ := hover.stray
    obtain ⟨more', d', hrun', hlost⟩ := hstray.incoherent hasked hw
    exact ⟨_, d', hrun.append hrun', by rwa [List.append_assoc]⟩

/-- Whether the task that has the guard waits for the begin of a reset. -/
def isResetting (c : Controller) : Bool :=
  match c.guard.bind (c.tasks[·]?) with
  | some ⟨_, .reset _⟩ => true
  | _ => false

lemma not_overtaken_of_isResetting (h : c.isResetting = false) : ¬ c.Overtaken := by
  rintro ⟨t, role, outcome, _, hg, ht, _⟩
  rw [isResetting, hg, Option.bind_some, ht] at h
  cases h

/-- A run that is paused during a step, with no reset in its course, ends coherent. -/
theorem coherent_after_pause : ∃ log c,
    replay (.ofSettings oneSource) [.request .run, .began 0 (.ok ()),
      .loaded 0 (.ok (.loaded {} [])), .read 0 0 (.ok []), .resumed 1, .resumed 1,
      .request .pause, .stepped 1 (.ok { pc := 3 }), .read 1 0 (.ok [])] = some (log, c) ∧
    c.state = .paused ∧ Coherent log c := by
  obtain ⟨⟨log, c⟩, hlog⟩ := Option.isSome_iff_exists.mp (show (replay (.ofSettings oneSource)
    [.request .run, .began 0 (.ok ()), .loaded 0 (.ok (.loaded {} [])), .read 0 0 (.ok []),
      .resumed 1, .resumed 1, .request .pause, .stepped 1 (.ok { pc := 3 }),
      .read 1 0 (.ok [])]).isSome = true by rfl)
  have hend : (log, c) = (replay (.ofSettings oneSource) [.request .run, .began 0 (.ok ()),
      .loaded 0 (.ok (.loaded {} [])), .read 0 0 (.ok []), .resumed 1, .resumed 1,
      .request .pause, .stepped 1 (.ok { pc := 3 }), .read 1 0 (.ok [])]).get (by rfl) := by
    simp only [hlog, Option.get_some]
  have hquiet : (log, c).1.all (fun x => match x with
      | .event found _ => !found.isResetting
      | .occurrence _ => true) = true := by
    rw [hend]
    rfl
  have hfree (found : Controller) (e : Event) (he : .event found e ∈ log) : ¬ found.Overtaken := by
    have hone := List.all_eq_true.mp hquiet _ he
    exact not_overtaken_of_isResetting (Bool.eq_false_iff.mpr fun hr => by simp [hr] at hone)
  have hnow : (log, c).2.isResetting = false := by
    rw [hend]
    rfl
  have hstate : (log, c).2.state = .paused := by
    rw [hend]
    rfl
  exact ⟨log, c, hlog, hstate, (coherent_unless_overtaken (.of_replay hlog) hfree).1
    (not_overtaken_of_isResetting hnow)⟩

/-- A stop that comes after a pause, before the loop has ended, leaves the controller paused without
registers, and the next request of a view sends a step without a program. -/
theorem incoherent_after_pause_and_stop : ∃ log c d news,
    replay (.ofSettings oneSource) [.request .run, .began 0 (.ok ()),
      .loaded 0 (.ok (.loaded {} [])), .read 0 0 (.ok []), .resumed 1, .request .pause,
      .request .stop, .began 3 (.ok ()), .resumed 1] = some (log, c) ∧
    ¬ Coherent log c ∧ c.guard = none ∧ c.state = .paused ∧ c.session.IsBlank ∧
    c.happen? (.request .step) = some (d, news) ∧ .sent 4 0 .step ∈ news ∧
    holdsProgram log = false := by
  obtain ⟨⟨log, c⟩, hlog⟩ := Option.isSome_iff_exists.mp (show (replay (.ofSettings oneSource)
    [.request .run, .began 0 (.ok ()), .loaded 0 (.ok (.loaded {} [])), .read 0 0 (.ok []),
      .resumed 1, .request .pause, .request .stop, .began 3 (.ok ()), .resumed 1]).isSome = true by
      rfl)
  have hend : (log, c) = (replay (.ofSettings oneSource) [.request .run, .began 0 (.ok ()),
      .loaded 0 (.ok (.loaded {} [])), .read 0 0 (.ok []), .resumed 1, .request .pause,
      .request .stop, .began 3 (.ok ()), .resumed 1]).get (by rfl) := by
    simp only [hlog, Option.get_some]
  have hguard : (log, c).2.guard = none := by
    rw [hend]
    rfl
  have hstate : (log, c).2.state = .paused := by
    rw [hend]
    rfl
  have hblank : (log, c).2.session.IsBlank := by
    rw [hend]
    exact ⟨rfl, rfl, rfl, rfl⟩
  have hprogram : holdsProgram (log, c).1 = false := by
    rw [hend]
    rfl
  have hstep : ((log, c).2.happen? (.request .step)).map (·.2) =
      some [.published (.state .running), .sent 4 0 .step] := by
    rw [hend]
    rfl
  obtain ⟨⟨d, news⟩, hd, rfl⟩ := Option.map_eq_some_iff.mp hstep
  refine ⟨log, c, d, _, hlog, fun hcoherent => ?_, hguard, hstate, hblank, hd, .tail _ (.head _),
    hprogram⟩
  have hloaded := (hcoherent.ready hguard (.inr hstate)).2
  rw [hprogram] at hloaded
  cases hloaded

end Controller
end SicDebugger
