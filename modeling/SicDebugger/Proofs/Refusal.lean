import SicDebugger.Proofs.Handle
import SicDebugger.Proofs.Script

/-!
# Halts that are refused

A pause or a stop that finds a loop with the handle waits for its end and is not refused for that.
The first of them takes the handle away, so one that comes while the loop is still to end finds none
and goes by the state or by the guard alone: a pause is refused while the state is that of a run,
and a stop while a step is under way. A stop that has waited can be refused as well, when another
request is served between the end of the loop and its turn. A stop that is not refused resets.
-/

namespace SicDebugger

/-- Whether a halt that finds no loop is refused: a pause by the state, a stop by the guard. -/
def Halt.Refusable (c : Controller) : Halt → Prop
  | .pause => c.state = .running ∨ c.state = .loading
  | .stop => c.guard ≠ none

/-- Whether an entry of the log finds the guard free if it lets a task go on. -/
def LogEntry.findsFree : LogEntry → Bool
  | .event found (.resumed _) => found.guard.isNone
  | _ => true

namespace Controller

variable {log more : List LogEntry} {start c d last found after : Controller} {t l : TaskId}
  {role : Role} {halt : Halt} {e : Event} {news : List Occurrence}

/-- A task has been answered that the controller is busy. -/
def Refused (t : TaskId) (log : List LogEntry) : Prop :=
  .occurrence (.answered t (.error .busy)) ∈ log

/-- A task goes on after the end of its loop and finds the guard taken. -/
def TooLate (t : TaskId) (log : List LogEntry) : Prop :=
  ∃ found, .event found (.resumed t) ∈ log ∧ found.guard ≠ none

/-- The answer to the begin of a reset clears the session, and the one who asked is told that all is
done. -/
def Resets (t : TaskId) (start : Controller) (log : List LogEntry) (last : Controller) : Prop :=
  ∃ found result next news, Through start log last found (.began t result) next news ∧
    next.session = found.session.clear ∧ next.state = .idle ∧ .answered t (.ok .done) ∈ news

/-! ## Entries of the one who asked -/

lemma refused_append : Refused t (entries c e news ++ log) ↔
    .answered t (.error .busy) ∈ news ∨ Refused t log := by
  simp [Refused, entries]

lemma tooLate_append : TooLate t (entries c e news ++ log) ↔
    e = .resumed t ∧ c.guard ≠ none ∨ TooLate t log := by
  constructor
  · rintro ⟨found, hmem, hg⟩
    rcases List.mem_append.mp hmem with hmem | hmem
    · obtain ⟨rfl, rfl⟩ : found = c ∧ .resumed t = e := by simpa [entries] using hmem
      exact .inl ⟨rfl, hg⟩
    · exact .inr ⟨found, hmem, hg⟩
  · rintro (⟨rfl, hg⟩ | ⟨found, hmem, hg⟩)
    · exact ⟨c, by simp [entries], hg⟩
    · exact ⟨found, List.mem_append_right _ hmem, hg⟩

lemma not_tooLate_of_all (h : log.all LogEntry.findsFree = true) : ¬ TooLate t log := by
  rintro ⟨found, hmem, hg⟩
  exact hg (Option.isNone_iff_eq_none.mp (List.all_eq_true.mp h _ hmem))

lemma Through.next {e' : Event} {news' : List Occurrence}
    (h : Through start log last found e after news)
    (hd : last.happen? e' = some (d, news')) :
    Through start (entries last e' news' ++ log) d found e after news := by
  obtain ⟨hfound, early, late, hbefore, hafter, rfl⟩ := h
  refine ⟨hfound, early, _, hbefore, .next hafter hd, ?_⟩
  simp [entries]

/-! ## Work of the one who asked -/

/-- A stop that goes on is refused, or it resets. -/
lemma stopNow_cases (c : Controller) (t : TaskId) :
    c.guard ≠ none ∧ c.stopNow t = c.answer t (.error .busy) ∨
      c.guard = none ∧ c.stopNow t = (c.hold t).reset t .request (.ok .done) := by
  unfold stopNow guarded
  cases hg : c.guard with
  | none => exact .inr ⟨rfl, rfl⟩
  | some holder => exact .inl ⟨by simp, rfl⟩

/-- What is left of a halt once it goes on without a loop. -/
inductive Outcome (t : TaskId) (halt : Halt) (refusable : Prop) (d : Controller)
    (news : List Occurrence) : Prop where
  | refused (hr : refusable) (ht : d.tasks[t]? = none) (hn : .answered t (.error .busy) ∈ news)
  | paused (hr : ¬ refusable) (hh : halt = .pause) (ht : d.tasks[t]? = none)
      (hn : .answered t (.error .busy) ∉ news)
  | resetting (hr : ¬ refusable) (hh : halt = .stop)
      (ht : d.tasks[t]? = some ⟨.request, .reset (.ok .done)⟩)
      (hn : .answered t (.error .busy) ∉ news)

lemma outcome_stopNow (hh : c.history = []) :
    Outcome t .stop (c.guard ≠ none) (c.stopNow t) (c.stopNow t).history.reverse := by
  rcases stopNow_cases c t with ⟨hg, hstop⟩ | ⟨hg, hstop⟩
  · rw [hstop]
    exact .refused hg (drop_tasks_self c t) (by simp [answer, note])
  · rw [hstop]
    refine .resetting (fun hne => hne hg) rfl Std.ExtTreeMap.getElem?_insert_self ?_
    simp [reset, call, setState, publish, note, suspend, hold, hh]

lemma outcome_afterLoop (hh : c.history = []) :
    Outcome t halt (halt = .stop ∧ c.guard ≠ none) (c.afterLoop t halt)
      (c.afterLoop t halt).history.reverse := by
  cases halt with
  | pause =>
    refine .paused (fun hr => by cases hr.1) rfl (drop_tasks_self c t) ?_
    simp [afterLoop, answer, note, hh]
  | stop =>
    have hstop : (Halt.stop = .stop ∧ c.guard ≠ none) = (c.guard ≠ none) := by simp
    rw [hstop]
    exact outcome_stopNow hh

lemma haltLoop_of_no_loop {otherwise : Controller → Controller} (h : c.loop? = none) :
    c.haltLoop t halt otherwise = otherwise { c with handle := none } := by
  unfold haltLoop
  split
  · next loop hl =>
    rw [loop?, hl, Option.filter_some] at h
    rw [if_neg]
    intro halive
    rw [if_pos halive] at h
    cases h
  · rfl

/-- A halt that finds no loop comes to its outcome at once. -/
lemma outcome_request (hh : c.history = []) (h : c.loop? = none) :
    Outcome c.nextTask halt (halt.Refusable c) (c.request halt.request)
      (c.request halt.request).history.reverse := by
  have hnone : { c with nextTask := c.nextTask + 1 }.loop? = none := h
  cases halt with
  | pause =>
    dsimp only [Halt.request, request, pause, Halt.Refusable]
    rw [haltLoop_of_no_loop hnone]
    dsimp only
    cases hst : c.state with
    | running | loading => exact .refused (by simp) (drop_tasks_self ..) (by simp [answer, note])
    | ready | paused | idle | stopped =>
      exact .paused (by simp) rfl (drop_tasks_self ..) (by simp [answer, note, hh])
  | stop =>
    dsimp only [Halt.request, request, stop]
    rw [haltLoop_of_no_loop hnone]
    exact outcome_stopNow (c := { c with nextTask := c.nextTask + 1, handle := none }) hh

/-! ## The course of a halt -/

/-- Where a halt is after a run from the controller that has taken it up: it waits for the end of
its loop, it is a stop that resets, or it has ended. A stop that has ended was refused, or has
reset. -/
inductive Stage (t : TaskId) (halt : Halt) (atOnce : Prop) (start : Controller)
    (log : List LogEntry) (last : Controller) : Prop where
  | waiting {loop : TaskId} (ht : last.tasks[t]? = some ⟨.request, .loopEnd loop halt⟩)
  | resetting (hh : halt = .stop) (ht : last.tasks[t]? = some ⟨.request, .reset (.ok .done)⟩)
  | ended (ht : last.tasks[t]? = none)
      (hend : halt = .stop → atOnce ∨ Refused t log ∨ Resets t start log last)

/-- The course of a halt: apart from a refusal at once, it is refused if and only if it is a stop
that finds the guard taken after the end of its loop. -/
structure Course (t : TaskId) (halt : Halt) (atOnce : Prop) (start : Controller)
    (log : List LogEntry) (last : Controller) : Prop where
  refused : Refused t log ↔ halt = .stop ∧ TooLate t log
  stage : Stage t halt atOnce start log last

variable {atOnce : Prop}

/-- The entry of a request stays while others are at work. -/
lemma Sound.keeps {w : Wait} (hs : Sound c) (hd : c.happen? e = some (d, news))
    (ht : c.tasks[t]? = some ⟨.request, w⟩) (hne : e.worker c ≠ t) :
    d.tasks[t]? = some ⟨.request, w⟩ := by
  obtain ⟨d', hd', rfl, rfl⟩ := happen?_eq_some hd
  rcases ((hs.forget []).isBy hd').others t (Ne.symm hne) with (hk | ⟨_, _, _, hk, _⟩) |
    ⟨hlow, _, _⟩
  · exact hk.trans ht
  · cases ht.symm.trans hk
  · exact absurd hlow (Nat.not_le.mpr (hs.fresh t _ ht))

/-- Nothing becomes of a halt while others are at work. -/
lemma Course.others (h : Course t halt atOnce start log last) (hs : Sound last)
    (hlt : t < last.nextTask) (hd : last.happen? e = some (d, news)) (hne : e.worker last ≠ t) :
    Course t halt atOnce start (entries last e news ++ log) d where
  refused := by
    have hanswer : .answered t (.error .busy) ∉ news := fun hmem =>
      hs.not_isOf hd hne (x := .occurrence (.answered t (.error .busy)))
        (by simp [entries, hmem]) rfl
    have hresume : e ≠ .resumed t := by
      rintro rfl
      exact hne rfl
    rw [refused_append, tooLate_append, h.refused]
    simp [hanswer, hresume]
  stage := by
    cases h.stage with
    | waiting ht => exact .waiting (hs.keeps hd ht hne)
    | resetting hh ht => exact .resetting hh (hs.keeps hd ht hne)
    | ended ht hend =>
      have hgone : Gone t last :=
        ⟨hlt, by rw [Std.ExtTreeMap.contains_eq_isSome_getElem?, ht]; rfl⟩
      have hstill := (hgone.run hs (Run.next .start hd)).2
      rw [Std.ExtTreeMap.contains_eq_isSome_getElem?, Option.isSome_eq_false_iff,
        Option.isNone_iff_eq_none] at hstill
      refine .ended hstill fun hstop => ?_
      rcases hend hstop with honce | hrefused | ⟨found, result, after, told, hthrough, hclear⟩
      · exact .inl honce
      · exact .inr (.inl (refused_append.mpr (.inr hrefused)))
      · exact .inr (.inr ⟨found, result, after, told, hthrough.next hd, hclear⟩)

/-- The turn of a halt after the end of its loop brings its outcome. -/
lemma Course.freed (h : Course t halt atOnce start log last) (hs : Sound last)
    (hd : last.happen? e = some (d, news)) (hworker : e.worker last = t)
    (ht : last.tasks[t]? = some ⟨.request, .loopEnd l halt⟩) :
    Course t halt atOnce start (entries last e news ++ log) d := by
  have hwait : last.tasks[e.worker last]? = some ⟨.request, .loopEnd l halt⟩ := hworker ▸ ht
  obtain ⟨d', hd', rfl, rfl⟩ := happen?_eq_some hd
  have haccepts := accepts_of_perform (hs.forget []) hd' hwait
  cases e with
  | resumed u =>
    obtain rfl : u = t := hworker
    obtain ⟨task, htask, hresume⟩ := perform?_resumed hd'
    obtain rfl : task = ⟨.request, .loopEnd l halt⟩ := Option.some.inj (htask.symm.trans ht)
    obtain rfl : d' = { last with history := [] }.afterLoop u halt := by
      rcases resume?_eq_some hresume with ⟨_, he, _⟩ | ⟨_, he, _⟩ | ⟨_, he, _⟩ |
        ⟨_, _, _, he, _, hlater⟩
      · cases he
      · cases he
      · cases he
      · cases he
        exact hlater
    have houtcome : Outcome u halt (halt = .stop ∧ last.guard ≠ none)
        ({ last with history := [] }.afterLoop u halt)
        ({ last with history := [] }.afterLoop u halt).history.reverse :=
      outcome_afterLoop (c := { last with history := [] }) rfl
    cases houtcome with
    | refused hr ht hn =>
      refine ⟨?_, .ended ht fun _ => .inr (.inl (refused_append.mpr (.inl hn)))⟩
      rw [refused_append, tooLate_append]
      exact ⟨fun _ => ⟨hr.1, .inl ⟨rfl, hr.2⟩⟩, fun _ => .inl hn⟩
    | paused _ hpause ht hn =>
      have hnot : halt ≠ .stop := fun hstop => absurd (hpause.symm.trans hstop) (by decide)
      refine ⟨?_, .ended ht fun hstop => absurd hstop hnot⟩
      rw [refused_append, h.refused]
      simp [hn, hnot]
    | resetting hr hstop ht hn =>
      refine ⟨?_, .resetting hstop ht⟩
      have hfree : ¬ last.guard ≠ none := fun hg => hr ⟨hstop, hg⟩
      rw [refused_append, tooLate_append, h.refused]
      simp [hn, hfree]
  | request | began | loaded | stepped | read | checked => cases haccepts

/-- The answer to the begin of its reset ends a stop. -/
lemma Course.cleared (h : Course t halt atOnce start log last) (hs : Sound last)
    (hd : last.happen? e = some (d, news)) (hrun : Run start log last) (hworker : e.worker last = t)
    (ht : last.tasks[t]? = some ⟨.request, .reset (.ok .done)⟩) :
    Course t halt atOnce start (entries last e news ++ log) d := by
  have hhappen := hd
  have hwait : last.tasks[e.worker last]? = some ⟨.request, .reset (.ok .done)⟩ := hworker ▸ ht
  obtain ⟨d', hd', rfl, rfl⟩ := happen?_eq_some hd
  have haccepts := accepts_of_perform (hs.forget []) hd' hwait
  cases e with
  | began u result =>
    obtain rfl : u = t := hworker
    obtain rfl : d' = { last with history := [] }.afterReset u .request (.ok .done) := by
      rcases perform?_began hd' with ⟨_, _, hw, _⟩ | ⟨_, _, hw, hlater⟩
      · cases hw.symm.trans ht
      · cases hw.symm.trans ht
        exact hlater
    have hbusy : .answered u (.error .busy) ∉
        ({ last with history := [] }.afterReset u .request (.ok .done)).history.reverse := by
      rw [List.mem_reverse]
      simp only [afterReset, conclude, answer, note, release]
      split <;> simp [setState, publishOf, publish, withSession, note]
    refine ⟨?_, .ended ?_ fun _ => .inr (.inr ⟨last, result, _, _, ⟨hhappen, log, [], hrun, .start,
      by simp [entries]⟩, afterReset_session _ _ _ _, conclude_state _ _ _ _, ?_⟩)⟩
    · rw [refused_append, tooLate_append, h.refused]
      simp [hbusy]
    · exact drop_tasks_self _ u
    · exact List.mem_reverse.mpr (.head _)
  | request | resumed | loaded | stepped | read | checked => cases haccepts

/-- Every event takes the halt on in its course. -/
lemma Course.next (h : Course t halt atOnce start log last) (hs : Sound last)
    (hlt : t < last.nextTask) (hrun : Run start log last)
    (hd : last.happen? e = some (d, news)) :
    Course t halt atOnce start (entries last e news ++ log) d := by
  by_cases hworker : e.worker last = t
  · cases h.stage with
    | waiting ht => exact h.freed hs hd hworker ht
    | resetting _ ht => exact h.cleared hs hd hrun hworker ht
    | ended ht =>
      -- what has ended is not set to work
      obtain ⟨d', hd', _⟩ := happen?_eq_some hd
      obtain ⟨task, htask⟩ := worker_mem hd' fun r he => by
        subst he
        exact Nat.ne_of_gt hlt hworker
      rw [show Event.worker _ e = t by rw [← hworker]; cases e <;> rfl] at htask
      cases ht.symm.trans htask
  · exact h.others hs hlt hd hworker

theorem Course.run (hs : Sound start) (hlt : t < start.nextTask)
    (h : Course t halt atOnce start [] start) (hm : Run start more last) :
    Course t halt atOnce start more last := by
  induction hm with
  | start => exact h
  | next hrun hd ih =>
    have hnext := ih.next (hs.run hrun) (Nat.lt_of_lt_of_le hlt (hs.nextTask_le hrun)) hrun hd
    simpa [entries] using hnext

/-- The course of a halt begins with the wait for its loop, or with its outcome. -/
lemma course_of_request (hd : c.happen? (.request halt.request) = some (d, news)) :
    (.answered c.nextTask (.error .busy) ∈ news ↔ c.loop? = none ∧ halt.Refusable c) ∧
      Course c.nextTask halt (.answered c.nextTask (.error .busy) ∈ news) d [] d := by
  have hnothing : Refused c.nextTask [] ↔ halt = .stop ∧ TooLate c.nextTask [] := by
    simp [Refused, TooLate]
  obtain ⟨d', hd', rfl, rfl⟩ := happen?_eq_some hd
  obtain rfl : d' = { c with history := [] }.request halt.request := (Option.some.inj hd').symm
  cases hloop : c.loop? with
  | none =>
    have houtcome : Outcome c.nextTask halt (halt.Refusable c)
        ({ c with history := [] }.request halt.request)
        ({ c with history := [] }.request halt.request).history.reverse :=
      outcome_request (c := { c with history := [] }) rfl hloop
    cases houtcome with
    | refused hr ht hn =>
      exact ⟨iff_of_true hn ⟨rfl, hr⟩, hnothing, .ended ht fun _ => .inl hn⟩
    | paused hr hh ht hn =>
      refine ⟨iff_of_false hn fun hrefusable => hr hrefusable.2, hnothing,
        .ended ht fun hstop => ?_⟩
      exact absurd (hh.symm.trans hstop) (by decide)
    | resetting hr hh ht hn =>
      exact ⟨iff_of_false hn fun hrefusable => hr hrefusable.2, hnothing, .resetting hh ht⟩
  | some l =>
    obtain ⟨hl, halive⟩ : c.handle = some l ∧ c.tasks.contains l = true := by
      simpa [loop?] using hloop
    have hasks := request_halt (c := { c with history := [] }) halt hl halive
    have hn : .answered c.nextTask (.error .busy) ∉
        ({ c with history := [] }.request halt.request).history.reverse := by
      rw [hasks, List.mem_reverse]
      rcases askHalt_history { c with
        nextTask := c.nextTask + 1
        handle := none
        history := [] } l halt with hsame | hwoken
      · simp [suspend, hsame]
      · simp [suspend, hwoken]
    have hasker : ({ c with history := [] }.request halt.request).tasks[c.nextTask]? =
        some ⟨.request, .loopEnd l halt⟩ := by
      rw [hasks]
      exact Std.ExtTreeMap.getElem?_insert_self
    exact ⟨iff_of_false hn (by simp), hnothing, .waiting hasker⟩

/-! ## All runs -/

/-- A pause or a stop is refused if and only if it finds no loop with the handle, and the state or
the guard is against it, or it is a stop that finds the guard taken when it goes on after the end of
its loop. A stop that has ended and was not refused has reset. As long as no event has found a loop
overtaken, a loop that nobody has asked to halt has the handle. -/
theorem halt_refused_iff {settings : ControllerSettings} (h : Run (.ofSettings settings) log c)
    (hd : c.happen? (.request halt.request) = some (d, news)) (hm : Run d more last) :
    (.answered c.nextTask (.error .busy) ∈ news ∨ Refused c.nextTask more ↔
      c.loop? = none ∧ halt.Refusable c ∨ halt = .stop ∧ TooLate c.nextTask more) ∧
    (halt = .stop → last.tasks.contains c.nextTask = false →
      .answered c.nextTask (.error .busy) ∉ news → ¬ Refused c.nextTask more →
      Resets c.nextTask d more last) ∧
    (NoneOvertaken log → ∀ (l : TaskId) (w : Wait), c.tasks[l]? = some ⟨.loop none, w⟩ →
      c.loop? = some l) := by
  have hs : Sound c := sound_of_run h
  obtain ⟨honce, hbegin⟩ := course_of_request hd
  have hlt : c.nextTask < d.nextTask := by
    obtain ⟨d', hd', rfl, rfl⟩ := happen?_eq_some hd
    exact (hs.forget []).worker_lt hd'
  have hcourse := hbegin.run (hs.happen hd) hlt hm
  refine ⟨?_, fun hstop hgone hnot hnever => ?_, fun hfree l w hl => ?_⟩
  · rw [honce, hcourse.refused]
  · rw [Std.ExtTreeMap.contains_eq_isSome_getElem?] at hgone
    cases hcourse.stage with
    | waiting ht =>
      rw [ht] at hgone
      cases hgone
    | resetting _ ht =>
      rw [ht] at hgone
      cases hgone
    | ended _ hend => exact ((hend hstop).resolve_left hnot).resolve_left hnever
  · have hhandle := handled_of_run h hfree l w hl
    have halive : c.tasks.contains l = true := by
      rw [Std.ExtTreeMap.contains_eq_isSome_getElem?, hl]
      rfl
    rw [loop?, hhandle, Option.filter_some, if_pos halive]

/-- A loop is stopped here while its step is under way. The stop is not refused, and it resets. -/
theorem stop_resets_while_stepping : ∃ log c d news more last,
    replay (.ofSettings oneSource) [.request .run, .began 0 (.ok ()),
      .loaded 0 (.ok (.loaded {} [])), .read 0 0 (.ok []), .resumed 1, .resumed 1] =
        some (log, c) ∧
    c.tasks[1]? = some ⟨.loop none, .step⟩ ∧ c.nextTask = 2 ∧
    c.happen? (.request Halt.stop.request) = some (d, news) ∧
    replay d [.stepped 1 (.ok { pc := 3 }), .read 1 0 (.ok []), .resumed 2, .began 2 (.ok ())] =
      some (more, last) ∧
    ¬ (.answered 2 (.error .busy) ∈ news ∨ Refused 2 more) ∧ Resets 2 d more last := by
  obtain ⟨⟨log, c⟩, hlog⟩ := Option.isSome_iff_exists.mp (show (replay (.ofSettings oneSource)
    [.request .run, .began 0 (.ok ()), .loaded 0 (.ok (.loaded {} [])), .read 0 0 (.ok []),
      .resumed 1, .resumed 1]).isSome = true by rfl)
  have hc : c = ((replay (.ofSettings oneSource) [.request .run, .began 0 (.ok ()),
      .loaded 0 (.ok (.loaded {} [])), .read 0 0 (.ok []), .resumed 1, .resumed 1]).get
      (by rfl)).2 := by
    simp only [hlog, Option.get_some]
  have hstep : c.tasks[1]? = some ⟨.loop none, .step⟩ := by
    rw [hc]
    rfl
  have hnumber : c.nextTask = 2 := by
    rw [hc]
    rfl
  have hloop : c.loop? = some 1 := by
    rw [hc]
    rfl
  obtain ⟨⟨d, news⟩, hd⟩ := Option.isSome_iff_exists.mp
    (show (c.happen? (.request Halt.stop.request)).isSome = true by rfl)
  have hd' : d = ((c.happen? (.request Halt.stop.request)).get (by rfl)).1 := by
    simp only [hd, Option.get_some]
  obtain ⟨⟨more, last⟩, hmore⟩ := Option.isSome_iff_exists.mp
    (show (replay d [.stepped 1 (.ok { pc := 3 }), .read 1 0 (.ok []), .resumed 2,
      .began 2 (.ok ())]).isSome = true by subst hd'; subst hc; rfl)
  have hend : (more, last) = (replay d [.stepped 1 (.ok { pc := 3 }), .read 1 0 (.ok []),
      .resumed 2, .began 2 (.ok ())]).get (by subst hd'; subst hc; rfl) := by
    simp only [hmore, Option.get_some]
  have hgone : (more, last).2.tasks.contains 2 = false := by
    rw [hend]
    subst hd'
    subst hc
    rfl
  have hfree : (more, last).1.all LogEntry.findsFree = true := by
    rw [hend]
    subst hd'
    subst hc
    rfl
  obtain ⟨hiff, hresets, _⟩ := halt_refused_iff (.of_replay hlog) hd (.of_replay hmore)
  rw [hnumber] at hiff hresets
  have hnot : ¬ (.answered 2 (.error .busy) ∈ news ∨ Refused 2 more) := by
    rw [hiff, hloop]
    rintro (⟨hnone, _⟩ | ⟨_, hlate⟩)
    · cases hnone
    · exact not_tooLate_of_all hfree hlate
  exact ⟨log, c, d, news, more, last, hlog, hstep, hnumber, hd, hmore, hnot,
    hresets rfl hgone (fun hn => hnot (.inl hn)) fun hm => hnot (.inr hm)⟩

/-- While one pause waits for a loop in the middle of its step, another pause and a stop are
refused, although the loop is alive. -/
theorem halts_refused_behind_a_pause : ∃ log c d news d' news',
    replay (.ofSettings oneSource) [.request .run, .began 0 (.ok ()),
      .loaded 0 (.ok (.loaded {} [])), .read 0 0 (.ok []), .resumed 1, .resumed 1,
      .request .pause] = some (log, c) ∧
    c.tasks[1]? = some ⟨.loop (some .pause), .step⟩ ∧
    c.tasks[2]? = some ⟨.request, .loopEnd 1 .pause⟩ ∧
    c.happen? (.request .pause) = some (d, news) ∧ .answered 3 (.error .busy) ∈ news ∧
    c.happen? (.request .stop) = some (d', news') ∧ .answered 3 (.error .busy) ∈ news' := by
  obtain ⟨⟨log, c⟩, hlog⟩ := Option.isSome_iff_exists.mp (show (replay (.ofSettings oneSource)
    [.request .run, .began 0 (.ok ()), .loaded 0 (.ok (.loaded {} [])), .read 0 0 (.ok []),
      .resumed 1, .resumed 1, .request .pause]).isSome = true by rfl)
  have hc : c = ((replay (.ofSettings oneSource) [.request .run, .began 0 (.ok ()),
      .loaded 0 (.ok (.loaded {} [])), .read 0 0 (.ok []), .resumed 1, .resumed 1,
      .request .pause]).get (by rfl)).2 := by
    simp only [hlog, Option.get_some]
  have hloop : c.tasks[1]? = some ⟨.loop (some .pause), .step⟩ := by
    rw [hc]
    rfl
  have hwaits : c.tasks[2]? = some ⟨.request, .loopEnd 1 .pause⟩ := by
    rw [hc]
    rfl
  have hpause : (c.happen? (.request .pause)).map (·.2) = some [.answered 3 (.error .busy)] := by
    rw [hc]
    rfl
  have hstop : (c.happen? (.request .stop)).map (·.2) = some [.answered 3 (.error .busy)] := by
    rw [hc]
    rfl
  obtain ⟨⟨d, _⟩, hd, rfl⟩ := Option.map_eq_some_iff.mp hpause
  obtain ⟨⟨d', _⟩, hd', rfl⟩ := Option.map_eq_some_iff.mp hstop
  exact ⟨log, c, d, _, d', _, hlog, hloop, hwaits, hd, .head _, hd', .head _⟩

end Controller
end SicDebugger
