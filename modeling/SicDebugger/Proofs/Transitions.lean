import SicDebugger.Proofs.Handle
import SicDebugger.Proofs.Tidings
import Mathlib.Data.List.Chain

/-!
# The execution states that are told

The views are told every execution state that is taken. From idle, a load leads to ready or back; a
program that is ready or paused is run and paused again; and from anywhere but a load a stop leads
to stopped and from there to idle. The states that a run tells follow one another in this way as
long as no reset overtakes a loop. A loop that a reset has overtaken can still be paused, and then
the views are told that the program is paused right after they were told that nothing is loaded.
-/

namespace SicDebugger

/-- Whether a state can be told next after another one. -/
def ExecutionState.leadsTo : ExecutionState → ExecutionState → Bool
  | idle, loading => true
  | loading, idle => true
  | loading, ready => true
  | ready, running => true
  | paused, running => true
  | running, paused => true
  | idle, stopped => true
  | ready, stopped => true
  | running, stopped => true
  | paused, stopped => true
  | stopped, idle => true
  | _, _ => false

/-- The execution states that a log tells, the latest first. -/
def statesTold (log : List LogEntry) : List ExecutionState :=
  (toldIn log).filterMap ViewMessage.state?

/-- The execution state that was told last. A run begins idle. -/
def lastTold (log : List LogEntry) : ExecutionState := (statesTold log).headD .idle

lemma head?_statesTold (log : List LogEntry) :
    (statesTold log ++ [ExecutionState.idle]).head? = some (lastTold log) := by
  unfold lastTold
  cases statesTold log <;> rfl

lemma statesTold_append (later earlier : List LogEntry) :
    statesTold (later ++ earlier) = statesTold later ++ statesTold earlier := by
  rw [statesTold, toldIn_append, List.filterMap_append, statesTold, statesTold]

/-- Each state comes next after another one where the latest is first. -/
abbrev InTurn (states : List ExecutionState) : Prop :=
  states.IsChain fun later earlier => earlier.leadsTo later = true

/-- The execution states that a log tells come next after one another, beginning at idle. -/
def Orderly (log : List LogEntry) : Prop := InTurn (statesTold log ++ [.idle])

namespace Controller

/-! ## States of a scene -/

/-- The execution states that a scene has told, the latest first. -/
def Scene.states (s : Scene) : List ExecutionState := s.told.filterMap ViewMessage.state?

@[simp] lemma Scene.states_enter (s : Scene) (state : ExecutionState) :
    (s.enter state).states = state :: s.states := rfl

@[simp] lemma Scene.states_takeStep (s : Scene) (next : RegisterSnapshot) :
    (s.takeStep next).states = s.states := by
  unfold takeStep
  cases (s.session.applyStep next).2.focused <;> rfl

@[simp] lemma Scene.states_takeErrors (s : Scene) (files : List LoadedFile) :
    (s.takeErrors files).states = s.states := by
  unfold takeErrors
  cases (Session.firstError? files).map fun p =>
    { p with file := s.session.diagnostics.key p.file } <;> rfl

@[simp] lemma Scene.state_takeStep (s : Scene) (next : RegisterSnapshot) :
    (s.takeStep next).state = s.state := by
  unfold takeStep
  cases (s.session.applyStep next).2.focused <;> rfl

@[simp] lemma Scene.state_takeErrors (s : Scene) (files : List LoadedFile) :
    (s.takeErrors files).state = s.state := by
  unfold takeErrors
  cases (Session.firstError? files).map fun p =>
    { p with file := s.session.diagnostics.key p.file } <;> rfl

lemma statesTold_timeline (c : Controller) (past : List LogEntry) :
    statesTold (c.timeline past) = c.scene.states ++ statesTold past := by
  rw [statesTold, toldIn_timeline, List.filterMap_append, Scene.states, statesTold]

variable {log past : List LogEntry} {c d : Controller} {t l : TaskId} {e : Event} {s : Scene}

/-- A scene has told states since the controller was there, and is in the last of them. -/
structure Later (c : Controller) (s : Scene) (states : List ExecutionState) : Prop where
  told : s.states = states ++ c.scene.states
  last : (states ++ [c.state]).head? = some s.state

lemma Later.same (hs : s.states = c.scene.states) (hst : s.state = c.state) : Later c s [] :=
  ⟨hs, by rw [hst]; rfl⟩

lemma Later.enter {states : List ExecutionState} (h : Later c s states) (state : ExecutionState) :
    Later c (s.enter state) (state :: states) :=
  ⟨by rw [Scene.states_enter, h.told]; rfl, rfl⟩

lemma Later.enterAll (h : Later c s []) (states : List ExecutionState) :
    Later c (s.enterAll states) states := by
  induction states with
  | nil => exact h
  | cons state states ih => exact ih.enter state

/-- A scene has told states that come next after one another from where the controller was. -/
def Proper (c : Controller) (s : Scene) : Prop :=
  ∃ states, Later c s states ∧ InTurn (states ++ [c.state])

lemma Proper.same (hs : s.states = c.scene.states) (hst : s.state = c.state) : Proper c s :=
  ⟨[], .same hs hst, .singleton _⟩

lemma Proper.enter {state : ExecutionState} (hs : s.states = c.scene.states)
    (hst : s.state = c.state) (h : c.state.leadsTo state = true) : Proper c (s.enter state) :=
  ⟨[state], (Later.same hs hst).enter state, .cons_cons h (.singleton _)⟩

/-! ## Single events -/

/-- A stop can be told wherever a calm controller has the guard free. -/
lemma Calm.leadsTo_stopped (h : Calm log c) (hg : c.guard = none) :
    c.state.leadsTo .stopped = true := by
  rcases h.free hg with ⟨hst, _⟩ | ⟨hst | hst | hst, _⟩ <;> rw [hst] <;> rfl

/-- Once the views have been refreshed, the states that are taken come next after one another. -/
lemma inTurn_afterRefresh (next : AfterRefresh) (role : Role) :
    InTurn (next.states role ++ [next.state]) := by
  match next, role with
  | .load .run, _ => exact .cons_cons rfl (.cons_cons rfl (.singleton _))
  | .load .step, _ => exact .cons_cons rfl (.singleton _)
  | .step .continue, .loop (some .pause) => exact .cons_cons rfl (.singleton _)
  | .step .continue, .loop none => exact .singleton _
  | .step .continue, .loop (some .stop) => exact .singleton _
  | .step .continue, .request => exact .cons_cons rfl (.singleton _)
  | .step (.breakpointHit ..), _ => exact .cons_cons rfl (.singleton _)
  | .step .finished, _ => exact .cons_cons rfl (.singleton _)

/-- Where the controller is calm, an event tells states that come next after one another. -/
lemma Calm.proper (h : Calm log c) (ho : Disciplined log c) (ht : Tidings c e s) : Proper c s := by
  -- the answer to a call finds the state that its section leads to expect
  have hphase {t : TaskId} {role : Role} {w : Wait} (htask : c.tasks[t]? = some ⟨role, w⟩)
      (hw : w.isInSection = true) : Phase log c.state c.session (some w) :=
    h.held t _ (ho.inSection t _ htask hw) htask
  cases ht with
  | nothing => exact .same rfl rfl
  | load _ hg hs =>
    refine .enter rfl rfl ?_
    rcases h.free hg with ⟨hst, _⟩ | ⟨hst | hst | hst, _⟩
    · rw [hst]
      rfl
    all_goals
      rw [hst] at hs
      rcases hs with hs | hs <;> cases hs
  | run _ _ hs =>
    refine .enter rfl rfl ?_
    rcases hs with hst | hst <;> rw [hst] <;> rfl
  | stop hg => exact .enter rfl rfl (h.leadsTo_stopped hg)
  | freed _ hg => exact .enter rfl rfl (h.leadsTo_stopped hg)
  | left htask hw =>
    refine .enter rfl rfl ?_
    have hrolls : Rolls c _ := ⟨_, _, htask, by simp⟩
    have hturn := hw.imp_right fun hw => hw.resolve_right (h.noLine _ _ htask)
    rw [(h.roaming htask hrolls hturn).state]
    rfl
  | toggled | selected | moved | moving | checked | loaded | read | windowRead =>
    exact .same rfl rfl
  | beginFailed htask =>
    refine .enter rfl rfl ?_
    rw [(hphase htask rfl).1]
    rfl
  | loadFailed htask =>
    refine .enter rfl rfl ?_
    rw [(hphase htask rfl).1]
    rfl
  | refused htask =>
    refine .enter (Scene.states_takeErrors ..) (Scene.state_takeErrors ..) ?_
    rw [(hphase htask rfl).1]
    rfl
  | stepFailed htask =>
    refine .enter rfl rfl ?_
    rw [(hphase htask rfl).1]
    rfl
  | ended htask =>
    refine .enter (Scene.states_takeStep ..) (Scene.state_takeStep ..) ?_
    rw [(hphase htask rfl).1]
    rfl
  | stepped => exact .same (Scene.states_takeStep ..) (Scene.state_takeStep ..)
  | reset htask =>
    refine .enter rfl rfl ?_
    rw [(hphase htask rfl : c.state = .stopped)]
    rfl
  | @refreshed t role pending next _ _ _ htask =>
    refine ⟨next.states role, ?_, ?_⟩
    · refine Later.enterAll ?_ _
      exact .same rfl rfl
    · rw [(hphase htask rfl).1]
      exact inTurn_afterRefresh next role

/-- What leaves an idle controller: a run, a step or a stop, or a stop that goes on once its loop
has ended. -/
inductive Leaves (c : Controller) : Event → Prop where
  | request {r : ViewRequest} (hr : r = .run ∨ r = .step ∨ r = .stop) : Leaves c (.request r)
  | freed {t : TaskId} {role loop} (ht : c.tasks[t]? = some ⟨role, .loopEnd loop .stop⟩) :
      Leaves c (.resumed t)

/-- Where a calm controller is idle, only what leaves it tells an execution state. -/
lemma Calm.leaves (h : Calm log c) (ho : Disciplined log c) (hidle : c.state = .idle)
    (ht : Tidings c e s) (hs : s.states ≠ c.scene.states) : Leaves c e := by
  -- no section that tells a state is under way
  have hphase {t : TaskId} {role : Role} {w : Wait} (htask : c.tasks[t]? = some ⟨role, w⟩)
      (hw : w.isInSection = true) : Phase log .idle c.session (some w) :=
    hidle ▸ h.held t _ (ho.inSection t _ htask hw) htask
  cases ht with
  | load hr => exact .request (by tauto)
  | run hr => exact .request (by tauto)
  | stop => exact .request (.inr (.inr rfl))
  | freed htask => exact .freed htask
  | left htask hw =>
    have hturn := hw.imp_right fun hw => hw.resolve_right (h.noLine _ _ htask)
    have hrun := (h.roaming htask ⟨_, _, htask, by simp⟩ hturn).state
    rw [hidle] at hrun
    cases hrun
  | nothing | toggled | selected | moved | moving | checked | loaded | read | windowRead =>
    exact absurd rfl hs
  | stepped => exact absurd (Scene.states_takeStep ..) hs
  | beginFailed htask => cases (hphase htask rfl).1
  | loadFailed htask => cases (hphase htask rfl).1
  | refused htask => cases (hphase htask rfl).1
  | stepFailed htask => cases (hphase htask rfl).1
  | ended htask => cases (hphase htask rfl).1
  | reset htask => cases (show ExecutionState.idle = .stopped from hphase htask rfl)
  | @refreshed _ _ _ next _ _ _ htask =>
    have hst := (hphase htask rfl).1
    cases next <;> cases hst

/-! ## Runs -/

lemma inTurn_append {later earlier : List ExecutionState} {state : ExecutionState}
    (h : InTurn (later ++ [state])) (he : InTurn earlier) (hlast : earlier.head? = some state) :
    InTurn (later ++ earlier) := by
  obtain ⟨rest, rfl⟩ := List.head?_eq_some_iff.mp hlast
  exact List.isChain_split.mpr ⟨h, he⟩

/-- As long as no event has found a loop overtaken, the states that a run tells come next after one
another, and the last of them is the state of the controller. -/
lemma Run.orderly {settings : ControllerSettings} (h : Run (.ofSettings settings) log c)
    (hfree : NoneOvertaken log) :
    Orderly log ∧ lastTold log = c.state := by
  induction h with
  | start => exact ⟨.singleton _, rfl⟩
  | @next log c d e news hrun hd ih =>
    have hbefore : NoneOvertaken (.event c e :: log) := fun found e he =>
      hfree found e (List.mem_append_right _ he)
    obtain ⟨d', hd', rfl, rfl⟩ := happen?_eq_some hd
    obtain ⟨horderly, hlast⟩ := ih fun found e he => hbefore found e (.tail _ he)
    obtain ⟨states, hlater, hturn⟩ := ((hrun.calm hbefore).forget []).proper
      ((disciplined_of_run hrun).forget []) (tidings_of_perform hd')
    have htold : statesTold (d'.timeline (.event c e :: log)) = states ++ statesTold log := by
      rw [statesTold_timeline, hlater.told]
      exact congrArg (· ++ statesTold log) (List.append_nil states)
    rw [List.reverse_reverse]
    show Orderly (d'.timeline _) ∧ lastTold (d'.timeline _) = d'.state
    rw [Orderly, lastTold, htold, List.append_assoc]
    refine ⟨inTurn_append hturn horderly ((head?_statesTold log).trans (congrArg some hlast)), ?_⟩
    cases states with
    | nil => exact hlast.trans (Option.some.inj hlater.last)
    | cons state states => exact Option.some.inj hlater.last

/-! ## After a reset has overtaken a loop -/

/-- An event that can happen is a run by itself, which tells the states of its scene. -/
lemma single_told (hd : { c with history := [] }.perform? e = some d) (log : List LogEntry) :
    ∃ more, Run c more { d with history := d.history ++ c.history } ∧
      statesTold (more ++ log) = d.scene.states ++ statesTold log := by
  refine ⟨_, .single hd, ?_⟩
  rw [statesTold_append, statesTold_timeline]
  exact congrArg (· ++ statesTold log) (List.append_nil _)

/-- The reset that has overtaken a loop comes to its end, and the loop goes on. -/
lemma Overtaking.outlived (h : Overtaking log c) : ∃ more d, ∃ (l : TaskId) (asked : Option Halt)
    (w : Wait), Run c more d ∧ (statesTold (more ++ log)).head? = some .idle ∧
      d.tasks[l]? = some ⟨.loop asked, w⟩ ∧ c.tasks[l]? = d.tasks[l]? ∧ d.handle = c.handle ∧
      asked ≠ some .stop ∧ (w = .turn ∨ w = .asleep) := by
  obtain ⟨t, outcome, l, asked, w, _, ht, hline, hne, hl, hasked, hw, _⟩ := h
  have hd : { c with history := [] }.perform? (.began t (.ok ())) =
      some ({ c with history := [] }.afterReset t .request outcome) := by
    have ht' : { c with history := [] }.tasks[t]? = some ⟨.request, .reset outcome⟩ := ht
    rw [perform?, ht']
  rw [afterReset_of_line (c := { c with history := [] }) hline] at hd
  obtain ⟨more, hrun, htold⟩ := single_told hd log
  have hloop := drop_tasks_of_ne (c := c) hne
  refine ⟨more, _, l, asked, w, hrun, ?_, hloop.trans hl, hloop.symm, rfl, hasked, hw⟩
  rw [htold]
  rfl

/-- A loop that was asked to pause says so although the views were told that nothing is loaded. -/
lemma disorder {w : Wait} (htold : (statesTold log).head? = some .idle)
    (hl : c.tasks[l]? = some ⟨.loop (some .pause), w⟩) (hw : w = .turn ∨ w = .asleep) :
    ∃ more d, Run c more d ∧ ¬ Orderly (more ++ log) := by
  have hl' : { c with history := [] }.tasks[l]? = some ⟨.loop (some .pause), w⟩ := hl
  have hd : { c with history := [] }.perform? (.resumed l) =
      some ((({ c with history := [] } : Controller).setState .paused).endLoop l) := by
    rw [perform?, hl']
    rcases hw with rfl | rfl <;> rfl
  obtain ⟨more, hrun, hmore⟩ := single_told hd log
  obtain ⟨rest, hrest⟩ := List.head?_eq_some_iff.mp htold
  refine ⟨more, _, hrun, fun horderly => ?_⟩
  rw [Orderly, hmore, hrest, scene_endLoop, scene_setState, Scene.states_enter] at horderly
  have hstep := (List.isChain_cons_cons.mp horderly).1
  cases hstep

/-- A loop that nobody has asked to halt can be asked to pause, and nothing is told by that. -/
lemma pausable {w : Wait} (hlt : l < c.nextTask) (hl : c.tasks[l]? = some ⟨.loop none, w⟩)
    (hh : c.handle = some l) (log : List LogEntry) : ∃ more d, Run c more d ∧
      statesTold (more ++ log) = statesTold log ∧
      d.tasks[l]? = some ⟨.loop (some .pause), w⟩ := by
  have halive : c.tasks.contains l = true := by
    rw [Std.ExtTreeMap.contains_eq_isSome_getElem?, hl]
    rfl
  have hasks := request_halt (c := { c with history := [] }) .pause hh halive
  obtain ⟨more, hrun, hmore⟩ := single_told (c := c) (e := .request Halt.pause.request) rfl log
  refine ⟨more, _, hrun, ?_, ?_⟩
  · rw [hmore, hasks, scene_suspend, scene_askHalt]
    rfl
  · rw [hasks]
    show (suspend _ c.nextTask .request _).tasks[l]? = _
    rw [suspend_tasks_of_ne (Nat.ne_of_lt hlt)]
    exact askHalt_self (c := { c with
      nextTask := c.nextTask + 1
      handle := none
      history := [] }) hl

/-- Once a reset has overtaken a loop, the order can be lost. -/
lemma Overtaking.disorder (h : Overtaking log c) (hs : Sound c) (hh : Handled c) :
    ∃ more d, Run c more d ∧ ¬ Orderly (more ++ log) := by
  obtain ⟨more, d, l, asked, w, hrun, htold, hl, hsame, hhandle, hasked, hw⟩ := h.outlived
  match asked, hl with
  | some .stop, _ => exact absurd rfl hasked
  | some .pause, hl =>
    obtain ⟨more', d', hrun', hlost⟩ := Controller.disorder htold hl hw
    exact ⟨_, d', hrun.append hrun', by rwa [List.append_assoc]⟩
  | none, hl =>
    have hlt : l < d.nextTask := (hs.run hrun).fresh l _ hl
    obtain ⟨next, d', hrun', hquiet, hl'⟩ :=
      pausable hlt hl (hhandle.trans (hh l w (hsame.trans hl))) (more ++ log)
    obtain ⟨last, d'', hrun'', hlost⟩ := Controller.disorder (hquiet ▸ htold) hl' hw
    refine ⟨_, d'', (hrun.append hrun').append hrun'', ?_⟩
    rwa [List.append_assoc, List.append_assoc]

/-! ## All runs -/

/-- As long as no reset overtakes a loop, the execution states that are told come next after one
another, and idle is left by nothing but a run, a step or a stop. Once one does, the run can go on
to states that do not. -/
theorem orderly_unless_overtaken {settings : ControllerSettings}
    (h : Run (.ofSettings settings) log c)
    (hfree : ∀ found e, .event found e ∈ log → ¬ found.Overtaken) :
    Orderly log ∧
      (¬ c.Overtaken → lastTold log = .idle →
        ∀ e d news state, c.happen? e = some (d, news) → .published (.state state) ∈ news →
          Leaves c e) ∧
      (c.Overtaken → ∃ more d, Run c more d ∧ ¬ Orderly (more ++ log)) := by
  obtain ⟨horderly, hlast⟩ := h.orderly hfree
  refine ⟨horderly, fun hnot hidle e d news state hd hnews => ?_, fun hover => ?_⟩
  · have hcalm : Calm log c :=
      (calm_or_overtaking h hfree).resolve_right fun hover => hnot hover.overtaken
    obtain ⟨d', hd', rfl, rfl⟩ := happen?_eq_some hd
    have hleaves : Leaves { c with history := [] } e := by
      refine (hcalm.forget []).leaves ((disciplined_of_run h).forget [])
        (hlast.symm.trans hidle) (tidings_of_perform hd') fun hsame => ?_
      -- a state that is told is a state of the scene
      have hmem : state ∈ d'.scene.states := List.mem_filterMap.mpr
        ⟨_, List.mem_filterMap.mpr ⟨_, List.mem_reverse.mp hnews, rfl⟩, rfl⟩
      rw [hsame] at hmem
      cases hmem
    cases hleaves with
    | request hr => exact .request hr
    | freed ht => exact .freed ht
  · have hovertaking : Overtaking log c :=
      (calm_or_overtaking h hfree).resolve_left fun hcalm => hcalm.not_overtaken hover
    exact hovertaking.disorder (sound_of_run h) (handled_of_run h hfree)

/-- Without a reset in the course of a log no event has found a loop overtaken. -/
lemma noneOvertaken_of_all (h : log.all (fun
    | .event found _ => !found.isResetting
    | .occurrence _ => true) = true) : NoneOvertaken log := by
  intro found e he
  have hone := List.all_eq_true.mp h _ he
  exact not_overtaken_of_isResetting (Bool.eq_false_iff.mpr fun hr => by simp [hr] at hone)

/-- A run that is paused and then stopped tells its states in order. -/
theorem orderly_until_stopped : ∃ log c,
    replay (.ofSettings oneSource) [.request .run, .began 0 (.ok ()),
      .loaded 0 (.ok (.loaded {} [])), .read 0 0 (.ok []), .resumed 1, .request .pause,
      .resumed 1, .resumed 2, .request .stop] = some (log, c) ∧
    statesTold log = [.stopped, .paused, .running, .ready, .loading] ∧ Orderly log := by
  obtain ⟨⟨log, c⟩, hlog⟩ := Option.isSome_iff_exists.mp (show (replay (.ofSettings oneSource)
    [.request .run, .began 0 (.ok ()), .loaded 0 (.ok (.loaded {} [])), .read 0 0 (.ok []),
      .resumed 1, .request .pause, .resumed 1, .resumed 2, .request .stop]).isSome = true by rfl)
  have hend : (log, c) = (replay (.ofSettings oneSource) [.request .run, .began 0 (.ok ()),
      .loaded 0 (.ok (.loaded {} [])), .read 0 0 (.ok []), .resumed 1, .request .pause,
      .resumed 1, .resumed 2, .request .stop]).get (by rfl) := by
    simp only [hlog, Option.get_some]
  have hstates : statesTold (log, c).1 = [.stopped, .paused, .running, .ready, .loading] := by
    rw [hend]
    rfl
  have hquiet : (log, c).1.all (fun
      | .event found _ => !found.isResetting
      | .occurrence _ => true) = true := by
    rw [hend]
    rfl
  exact ⟨log, c, hlog, hstates,
    (orderly_unless_overtaken (.of_replay hlog) (noneOvertaken_of_all hquiet)).1⟩

/-- A stop that comes after a pause, before the loop has ended, is told in full, and after that the
views are told that the program is paused. -/
theorem disorderly_after_pause_and_stop : ∃ log c,
    replay (.ofSettings oneSource) [.request .run, .began 0 (.ok ()),
      .loaded 0 (.ok (.loaded {} [])), .read 0 0 (.ok []), .resumed 1, .request .pause,
      .request .stop, .began 3 (.ok ()), .resumed 1] = some (log, c) ∧
    statesTold log = [.paused, .idle, .stopped, .running, .ready, .loading] ∧ ¬ Orderly log := by
  obtain ⟨⟨log, c⟩, hlog⟩ := Option.isSome_iff_exists.mp (show (replay (.ofSettings oneSource)
    [.request .run, .began 0 (.ok ()), .loaded 0 (.ok (.loaded {} [])), .read 0 0 (.ok []),
      .resumed 1, .request .pause, .request .stop, .began 3 (.ok ()), .resumed 1]).isSome = true by
      rfl)
  have hend : (log, c) = (replay (.ofSettings oneSource) [.request .run, .began 0 (.ok ()),
      .loaded 0 (.ok (.loaded {} [])), .read 0 0 (.ok []), .resumed 1, .request .pause,
      .request .stop, .began 3 (.ok ()), .resumed 1]).get (by rfl) := by
    simp only [hlog, Option.get_some]
  have hstates : statesTold (log, c).1 =
      [.paused, .idle, .stopped, .running, .ready, .loading] := by
    rw [hend]
    rfl
  refine ⟨log, c, hlog, hstates, fun horderly => ?_⟩
  rw [Orderly, hstates] at horderly
  have hstep := (List.isChain_cons_cons.mp horderly).1
  cases hstep

end Controller
end SicDebugger
