import SicDebugger.Proofs.Effects

/-!
# Halting a loop

A pause or a stop is meant for the loop that has the handle. From then on, whatever the loop was
waiting for and whatever else happens, it sends no step any more, and the one who asked goes on only
once the loop has ended. A step that the loop had sent is still answered and taken.
-/

namespace SicDebugger

/-- The request of a view for a halt. -/
def Halt.request : Halt → ViewRequest
  | .pause => .pause
  | .stop => .stop

namespace LogEntry

/-- Whether an entry of the log is something that a task does. -/
def IsOf (t : TaskId) : LogEntry → Prop
  | .event found e => e.worker found = t
  | .occurrence (.sent u _ _) => u = t
  | .occurrence (.answered u _) => u = t
  | _ => False

end LogEntry

namespace Controller

variable {log more : List LogEntry} {c d last found next : Controller} {t l : TaskId} {e : Event}
  {news : List Occurrence}

/-! ## What a task waits for -/

/-- The entries that an event adds to the log. -/
def entries (found : Controller) (e : Event) (news : List Occurrence) : List LogEntry :=
  news.reverse.map .occurrence ++ [.event found e]

/-- A run has an event in its course. -/
def Through (start : Controller) (log : List LogEntry) (last found : Controller) (e : Event)
    (next : Controller) (news : List Occurrence) : Prop :=
  found.happen? e = some (next, news) ∧ ∃ before after, Run start before found ∧
    Run next after last ∧ log = after ++ (entries found e news ++ before)

lemma Sound.happen (hs : Sound c) (hd : c.happen? e = some (d, news)) : Sound d := by
  obtain ⟨d', hd', rfl, rfl⟩ := happen?_eq_some hd
  exact ((hs.forget []).perform hd').forget _

lemma Sound.run (hs : Sound c) (h : Run c log d) : Sound d := by
  induction h with
  | start => exact hs
  | next _ hd ih => exact ih.happen hd

lemma Sound.nextTask_le (hs : Sound c) (h : Run c log d) : c.nextTask ≤ d.nextTask := by
  have hall : Sound d ∧ c.nextTask ≤ d.nextTask :=
    h.invariant (P := fun _ d => Sound d ∧ c.nextTask ≤ d.nextTask)
      (fun h hd => ⟨hd.1.forget h, hd.2⟩) ⟨hs, Nat.le_refl _⟩
      fun _ _ hd hp => ⟨hd.1.perform hp, Nat.le_trans hd.2 (hd.1.isBy hp).nextTask⟩
  exact hall.2

/-- A task goes on waiting while others are at work. -/
lemma Sound.stays {w : Wait} {role : Role} (hs : Sound c) (hd : c.perform? e = some d)
    (ht : c.tasks[t]? = some ⟨role, w⟩) (hne : e.worker c ≠ t) :
    ∃ role', d.tasks[t]? = some ⟨role', w⟩ := by
  have hfresh : t < c.nextTask := hs.fresh t _ ht
  rcases (hs.isBy hd).others t (Ne.symm hne) with
    (hk | ⟨asked, halt, wait, hk, hk'⟩) | ⟨hlow, _, _⟩
  · exact ⟨role, hk.trans ht⟩
  · have hsame : Task.mk role w = ⟨.loop asked, wait⟩ := Option.some.inj (ht.symm.trans hk)
    cases hsame
    exact ⟨_, hk'⟩
  · exact absurd hlow (Nat.not_le.mpr hfresh)

lemma Sound.waits {w : Wait} {role : Role} (hs : Sound c) (hd : c.happen? e = some (d, news))
    (ht : c.tasks[t]? = some ⟨role, w⟩) (hne : e.worker c ≠ t) :
    ∃ role', d.tasks[t]? = some ⟨role', w⟩ := by
  obtain ⟨d', hd', rfl, rfl⟩ := happen?_eq_some hd
  exact (hs.forget []).stays (d := d') hd' ht hne

/-- An event adds nothing of a task that it does not set to work. -/
lemma Sound.not_isOf {x : LogEntry} (hs : Sound c) (hd : c.happen? e = some (d, news))
    (hne : e.worker c ≠ t) (hx : x ∈ entries c e news) : ¬ x.IsOf t := by
  obtain ⟨d', hd', rfl, rfl⟩ := happen?_eq_some hd
  rw [entries, List.reverse_reverse] at hx
  intro hof
  rcases List.mem_append.mp hx with hx | hx
  · obtain ⟨o, ho, rfl⟩ := List.mem_map.mp hx
    cases o with
    | sent u slot r =>
      exact hne ((prompts_of_sent (hs.forget []) hd' rfl ho).1.symm.trans hof)
    | answered u result =>
      exact hne ((worker_of_answered (hs.forget []) hd' rfl ho).symm.trans hof)
    | published | slept | ready => exact hof
  · rw [List.mem_singleton.mp hx] at hof
    exact hne hof

/-- A task waits for what it waits for and does nothing, until an event sets it to work. -/
theorem Run.waits {w : Wait} {role : Role} (hs : Sound d) (h : Run d more last)
    (ht : d.tasks[t]? = some ⟨role, w⟩) :
    ((∃ role', last.tasks[t]? = some ⟨role', w⟩) ∧ ∀ x ∈ more, ¬ x.IsOf t) ∨
      ∃ found e next news, Through d more last found e next news ∧ e.worker found = t ∧
        ∃ role', found.tasks[t]? = some ⟨role', w⟩ := by
  induction h with
  | start => exact .inl ⟨⟨role, ht⟩, fun x hx => by cases hx⟩
  | @next log c d' e news hrun hd ih =>
    rcases ih with ⟨⟨role', hwait⟩, hquiet⟩ | ⟨found, e', next, news', hthrough, hworker, hwait⟩
    · -- the last event is the first that can set the task to work
      by_cases hne : e.worker c = t
      · refine .inr ⟨c, e, d', news, ⟨hd, log, [], hrun, .start, ?_⟩, hne, role', hwait⟩
        simp [entries]
      · refine .inl ⟨(hs.run hrun).waits hd hwait hne, fun x hx => ?_⟩
        rw [List.append_cons] at hx
        rcases List.mem_append.mp hx with hx | hx
        · exact (hs.run hrun).not_isOf hd hne hx
        · exact hquiet x hx
    · obtain ⟨hd', before, after, hbefore, hafter, hlog⟩ := hthrough
      refine .inr ⟨found, e', next, news', ⟨hd', before, _, hbefore, .next hafter hd, ?_⟩, hworker,
        hwait⟩
      rw [hlog, List.append_assoc, List.cons_append]

/-! ## A loop that is asked to halt -/

/-- A loop was asked to halt, if it has not ended. -/
def Halting (l : TaskId) (c : Controller) : Prop :=
  l < c.nextTask ∧ ∀ task, c.tasks[l]? = some task → ∃ halt, task.role = .loop (some halt)

/-- Whatever happens, the loop stays asked to halt. -/
lemma Halting.perform (hs : Sound c) (h : Halting l c) (hd : c.perform? e = some d) :
    Halting l d := by
  have hw := hs.isBy hd
  refine ⟨Nat.lt_of_lt_of_le h.1 hw.nextTask, fun task ht => ?_⟩
  by_cases hl : l = e.worker c
  · subst hl
    rcases hw.own task ht with hold | ⟨hrole, _⟩
    · exact h.2 task hold
    · -- the loop is at work in the role that it had, with what it was asked
      obtain ⟨task', ht'⟩ := worker_mem hd fun r he => by
        subst he
        exact Nat.lt_irrefl _ h.1
      rw [hrole, roleOf_eq ht']
      exact h.2 task' ht'
  · rcases hw.others l hl with (hk | ⟨asked, halt, wait, _, hk'⟩) | ⟨hlow, _, _⟩
    · exact h.2 task (hk ▸ ht)
    · rw [hk', Option.some.injEq] at ht
      subst ht
      exact ⟨_, rfl⟩
    · exact absurd hlow (Nat.not_le.mpr h.1)

/-- It sends no step. -/
lemma Halting.no_step {slot : Nat} (hs : Sound c) (h : Halting l c) (hd : c.perform? e = some d)
    (hh : c.history = []) : .sent l slot .step ∉ d.history := by
  intro hsent
  obtain ⟨hl, hprompts⟩ := prompts_of_sent hs hd hh hsent
  have hasked (task : Task) (ht : c.tasks[e.worker c]? = some task) : task.role ≠ .loop none := by
    obtain ⟨halt, hrole⟩ := h.2 task (hl ▸ ht)
    rw [hrole]
    exact fun heq => by cases heq
  -- a step is prompted by a request, which is a new task, or by a loop that was asked nothing
  generalize hr : SimulatorRequest.step = r at hprompts
  cases hprompts with
  | step => exact Nat.ne_of_lt h.1 hl
  | woken ht _ => exact hasked _ ht rfl
  | served ht _ => exact hasked _ ht rfl
  | load | stop | window | check | begun | loaded | ended | stepped | freed => cases hr

/-- A loop that is asked to halt sends no step in any run. -/
theorem Halting.run (hs : Sound d) (h : Halting l d) (hm : Run d more last) :
    ∀ slot, .occurrence (.sent l slot .step) ∉ more := by
  have hall : (Sound last ∧ Halting l last) ∧
      ∀ slot, .occurrence (.sent l slot .step) ∉ more := by
    refine hm.invariant (P := fun more last => (Sound last ∧ Halting l last) ∧
      ∀ slot, .occurrence (.sent l slot .step) ∉ more) ?_ ⟨⟨hs, h⟩, fun _ => List.not_mem_nil⟩ ?_
    · exact fun _ hc => ⟨⟨hc.1.1.forget _, hc.1.2⟩, hc.2⟩
    · rintro log c e d found hc ⟨⟨hs, h⟩, hnone⟩ hd
      refine ⟨⟨hs.perform hd, h.perform hs hd⟩, fun slot hmem => ?_⟩
      rcases List.mem_append.mp hmem with hmem | hmem
      · obtain ⟨o, ho, heq⟩ := List.mem_map.mp hmem
        cases heq
        exact h.no_step hs hd (by rw [hc]) ho
      · rcases List.mem_cons.mp hmem with heq | hmem
        · cases heq
        · exact hnone slot hmem
  exact hall.2

/-! ## The one who asked -/

/-- A task has ended. -/
def Gone (l : TaskId) (c : Controller) : Prop := l < c.nextTask ∧ c.tasks.contains l = false

lemma Gone.perform (hs : Sound c) (h : Gone l c) (hd : c.perform? e = some d) : Gone l d := by
  have hw := hs.isBy hd
  have hnone : c.tasks[l]? = none := by
    rw [← Option.not_isSome_iff_eq_none, ← Std.ExtTreeMap.contains_eq_isSome_getElem?, h.2]
    exact Bool.false_ne_true
  refine ⟨Nat.lt_of_lt_of_le h.1 hw.nextTask, ?_⟩
  -- what has ended cannot be set to work, and its number is not given to another task
  have hne : l ≠ e.worker c := by
    rintro rfl
    obtain ⟨task, ht⟩ := worker_mem hd fun r he => by
      subst he
      exact Nat.lt_irrefl _ h.1
    rw [hnone] at ht
    cases ht
  rw [Std.ExtTreeMap.contains_eq_isSome_getElem?]
  rcases hw.others l hne with (hk | ⟨_, _, _, hk, _⟩) | ⟨hlow, _, _⟩
  · rw [hk, hnone]
    rfl
  · rw [hnone] at hk
    cases hk
  · exact absurd hlow (Nat.not_le.mpr h.1)

/-- What has ended does not come back. -/
lemma Gone.run (hs : Sound c) (h : Gone l c) (hm : Run c more d) : Gone l d := by
  have hall : Sound d ∧ Gone l d :=
    hm.invariant (P := fun _ d => Sound d ∧ Gone l d) (fun h hc => ⟨hc.1.forget h, hc.2⟩) ⟨hs, h⟩
      fun _ _ hc hd => ⟨hc.1.perform hd, hc.2.perform hc.1 hd⟩
  exact hall.2

/-- The task that waits for the end of a loop does nothing before that. -/
theorem Run.waits_for_end {role : Role} {halt : Halt} (hs : Sound d) (h : Run d more last)
    (ht : d.tasks[t]? = some ⟨role, .loopEnd l halt⟩) (hl : l < d.nextTask)
    (halive : last.tasks.contains l = true) :
    (∃ role', last.tasks[t]? = some ⟨role', .loopEnd l halt⟩) ∧ ∀ x ∈ more, ¬ x.IsOf t := by
  rcases h.waits hs ht with hwaits | ⟨found, e, next, news, hthrough, rfl, role', hwait⟩
  · exact hwaits
  obtain ⟨hd, before, after, hbefore, hafter, _⟩ := hthrough
  obtain ⟨d', hd', rfl, rfl⟩ := happen?_eq_some hd
  have hsound : Sound found := hs.run hbefore
  have haccepts := accepts_of_perform (hsound.forget []) hd' hwait
  cases e with
  | resumed u =>
    -- the loop had ended by then, and would be gone at the end as well
    obtain ⟨task, htask, hresume⟩ := perform?_resumed hd'
    have hsame : task = ⟨role', .loopEnd l halt⟩ := Option.some.inj (htask.symm.trans hwait)
    subst hsame
    rcases resume?_eq_some hresume with ⟨_, he, _⟩ | ⟨_, he, _⟩ | ⟨_, he, _⟩ |
      ⟨_, loop, _, he, hgone, _⟩
    · cases he
    · cases he
    · cases he
    · cases he
      have hend : Gone l found := ⟨Nat.lt_of_lt_of_le hl (hs.nextTask_le hbefore), hgone⟩
      have hnow := (hend.run hsound ((Run.next .start hd).append hafter)).2
      rw [halive] at hnow
      cases hnow
  | request | began | loaded | stepped | read | checked => cases haccepts

/-! ## A step that was sent -/

/-- What comes of the answer to a step of a loop: the session takes the registers; or, if the step
failed, the views are told why and a reset begins, which the loop does not end before. -/
def Taken (l : TaskId) (found next : Controller) (news : List Occurrence) (last : Controller) :
    Except Error RegisterSnapshot → Prop
  | .ok registers => next.session = (found.session.applyStep registers).1
  | .error err => .published (.notice err.message) ∈ news ∧
      (∃ mode, .sent l 0 (.begin mode) ∈ news) ∧
      (last.tasks.contains l = false → ∃ after found' result next' news',
        Through next after last found' (.began l result) next' news' ∧
        next'.session = found'.session.clear)

/-- What becomes of a step that a loop has sent: it can still be answered, or its answer has come
and was taken. -/
def StepSettled (l : TaskId) (start : Controller) (log : List LogEntry) (last : Controller) :
    Prop :=
  (∃ role, last.tasks[l]? = some ⟨role, .step⟩ ∧
    ∀ answer, (last.happen? (.stepped l answer)).isSome = true) ∨
  ∃ found answer next news, Through start log last found (.stepped l answer) next news ∧
    Taken l found next news last answer

/-- A task that waits for the begin of a reset has not ended before it. -/
lemma Run.resets {role : Role} {outcome : Except Error Reply} (hs : Sound d)
    (h : Run d more last) (ht : d.tasks[t]? = some ⟨role, .reset outcome⟩)
    (hgone : last.tasks.contains t = false) :
    ∃ found result next news, Through d more last found (.began t result) next news ∧
      next.session = found.session.clear := by
  rcases h.waits hs ht with
    ⟨⟨role', hwait⟩, _⟩ | ⟨found, e, next, news, hthrough, rfl, role', hwait⟩
  · rw [Std.ExtTreeMap.contains_eq_isSome_getElem?, hwait] at hgone
    cases hgone
  · obtain ⟨hd, before, after, hbefore, hafter, hlog⟩ := hthrough
    obtain ⟨d', hd', rfl, rfl⟩ := happen?_eq_some hd
    have haccepts := accepts_of_perform ((hs.run hbefore).forget []) hd' hwait
    cases e with
    | began u result =>
      refine ⟨found, result, _, _, ⟨hd, before, after, hbefore, hafter, hlog⟩, ?_⟩
      rcases perform?_began hd' with ⟨_, _, hw, _⟩ | ⟨_, _, _, rfl⟩
      · cases hw.symm.trans hwait
      · exact afterReset_session _ _ _ _
    | request | loaded | stepped | read | checked | resumed => cases haccepts

lemma afterStep_error_history (c : Controller) (t : TaskId) (role : Role) (err : Error) :
    (c.afterStep t role (.error err)).history = .sent t 0 (.begin c.settings.mode) ::
      .published (.state .stopped) :: .published (.notice err.message) :: c.history := rfl

/-- A step that a loop has sent is answered and taken before the loop ends. -/
theorem Run.settles {role : Role} (hs : Sound d) (h : Run d more last)
    (ht : d.tasks[l]? = some ⟨role, .step⟩) : StepSettled l d more last := by
  rcases h.waits hs ht with
    ⟨⟨role', hwait⟩, _⟩ | ⟨found, e, next, news, hthrough, rfl, role', hwait⟩
  · refine .inl ⟨role', hwait, fun answer => ?_⟩
    have hwait' : { last with history := [] }.tasks[l]? = some ⟨role', .step⟩ := hwait
    rw [happen?, perform?, hwait']
    rfl
  · obtain ⟨hd, before, after, hbefore, hafter, hlog⟩ := hthrough
    obtain ⟨d', hd', rfl, rfl⟩ := happen?_eq_some hd
    have hsound := hs.run hbefore
    have haccepts := accepts_of_perform (hsound.forget []) hd' hwait
    cases e with
    | stepped u answer =>
      refine .inr ⟨found, answer, _, _, ⟨hd, before, after, hbefore, hafter, hlog⟩, ?_⟩
      obtain ⟨role, _, rfl⟩ := perform?_stepped hd'
      cases answer with
      | ok registers => exact afterStep_session _ _ role _
      | error err =>
        -- a loop that has ended was set to work again, by the answer to the begin of its reset
        refine ⟨?_, ⟨found.settings.mode, ?_⟩, fun hgone => ⟨after, ?_⟩⟩
        · rw [List.mem_reverse, afterStep_error_history]
          exact .tail _ (.tail _ (.head _))
        · rw [List.mem_reverse, afterStep_error_history]
          exact .head _
        · exact hafter.resets (hsound.happen hd) Std.ExtTreeMap.getElem?_insert_self hgone
    | request | began | loaded | read | checked | resumed => cases haccepts

/-! ## Halting -/

lemma askHalt_self {asked : Option Halt} {wait : Wait} {halt : Halt}
    (ht : c.tasks[l]? = some ⟨.loop asked, wait⟩) :
    (c.askHalt l halt).tasks[l]? =
      some ⟨.loop (some (Halt.strengthen asked halt)), wait⟩ := by
  rw [askHalt, ht]
  dsimp only
  split <;> exact Std.ExtTreeMap.getElem?_insert_self

/-- A halt that finds the loop alive asks it to halt and waits for its end. -/
lemma request_halt (halt : Halt) (hl : c.handle = some l) (halive : c.tasks.contains l = true) :
    c.request halt.request =
      ({ c with nextTask := c.nextTask + 1, handle := none }.askHalt l halt).suspend c.nextTask
        .request (.loopEnd l halt) := by
  cases halt <;> simp [Halt.request, request, pause, stop, haltLoop, hl, halive]

/-- Once a pause or a stop has asked a loop to halt, the loop sends no step any more; the one who
asked does nothing while the loop is alive; and a step that the loop had sent is answered and taken
before the loop ends. -/
theorem halt_is_kept {settings : ControllerSettings} {halt : Halt}
    (h : Run (.ofSettings settings) log c) (hl : c.handle = some l)
    (halive : c.tasks.contains l = true)
    (hd : c.happen? (.request halt.request) = some (d, news)) (hm : Run d more last) :
    (∀ slot, .sent l slot .step ∉ news ∧ .occurrence (.sent l slot .step) ∉ more) ∧
    (last.tasks.contains l = true →
      (∃ role, last.tasks[c.nextTask]? = some ⟨role, .loopEnd l halt⟩) ∧
        ∀ x ∈ more, ¬ x.IsOf c.nextTask) ∧
    ∀ role, c.tasks[l]? = some ⟨role, .step⟩ → StepSettled l d more last := by
  have hs : Sound c := sound_of_run h
  have hsd : Sound d := hs.happen hd
  obtain ⟨hlt, hrole⟩ := hs.handle l hl
  -- the loop is there, with its role
  obtain ⟨asked, wait, hloop⟩ : ∃ asked wait, c.tasks[l]? = some ⟨.loop asked, wait⟩ := by
    rw [Std.ExtTreeMap.contains_eq_isSome_getElem?] at halive
    obtain ⟨⟨role, wait⟩, ht⟩ := Option.isSome_iff_exists.mp halive
    cases role with
    | request => exact absurd rfl (hrole _ ht)
    | loop asked => exact ⟨asked, wait, ht⟩
  obtain ⟨d', hd', rfl, rfl⟩ := happen?_eq_some hd
  obtain rfl : d' = { c with history := [] }.request halt.request := (Option.some.inj hd').symm
  have hasks := request_halt (c := { c with history := [] }) halt hl halive
  have hasked : ({ c with history := [] }.request halt.request).tasks[l]? =
      some ⟨.loop (some (Halt.strengthen asked halt)), wait⟩ := by
    rw [hasks, suspend, getElem?_insert_of_ne (Nat.ne_of_lt hlt)]
    exact askHalt_self hloop
  have hasker : ({ c with history := [] }.request halt.request).tasks[c.nextTask]? =
      some ⟨.request, .loopEnd l halt⟩ := by
    rw [hasks]
    exact Std.ExtTreeMap.getElem?_insert_self
  have hnext := (hs.forget []).isBy hd'
  have hlow : l < ({ c with history := [] }.request halt.request).nextTask :=
    Nat.lt_of_lt_of_le hlt hnext.nextTask
  refine ⟨fun slot => ⟨fun hsent => ?_, ?_⟩, fun hend => ?_, fun role hstep => ?_⟩
  · have hby := (prompts_of_sent (hs.forget []) hd' rfl (List.mem_reverse.mp hsent)).1
    exact Nat.ne_of_lt hlt hby
  · refine Halting.run hsd ⟨hlow, fun task ht => ?_⟩ hm slot
    obtain rfl := Option.some.inj (hasked.symm.trans ht)
    exact ⟨_, rfl⟩
  · exact hm.waits_for_end hsd hasker hlow hend
  · obtain ⟨rfl, rfl⟩ : role = .loop asked ∧ .step = wait := by
      have hsame := Option.some.inj (hstep.symm.trans hloop)
      exact ⟨congrArg Task.role hsame, congrArg Task.wait hsame⟩
    exact hm.settles hsd hasked

/-- A loop is paused here while its step is under way, and the step fails after that. -/
theorem halt_is_kept_while_stepping : ∃ log c d news more last,
    replay (.ofSettings oneSource) [.request .step, .began 0 (.ok ()),
      .loaded 0 (.ok (.loaded {} [])), .read 0 0 (.ok []), .request .run, .resumed 2,
      .resumed 2] = some (log, c) ∧
    c.handle = some 2 ∧ c.tasks[2]? = some ⟨.loop none, .step⟩ ∧
    c.happen? (.request Halt.pause.request) = some (d, news) ∧
    replay d [.stepped 2 (.error .busy)] = some (more, last) ∧
    (∀ slot, .occurrence (.sent 2 slot .step) ∉ more) ∧ StepSettled 2 d more last := by
  obtain ⟨⟨log, c⟩, hlog⟩ := Option.isSome_iff_exists.mp (show (replay (.ofSettings oneSource)
    [.request .step, .began 0 (.ok ()), .loaded 0 (.ok (.loaded {} [])), .read 0 0 (.ok []),
      .request .run, .resumed 2, .resumed 2]).isSome = true by rfl)
  have hc : c = ((replay (.ofSettings oneSource) [.request .step, .began 0 (.ok ()),
      .loaded 0 (.ok (.loaded {} [])), .read 0 0 (.ok []), .request .run, .resumed 2,
      .resumed 2]).get (by rfl)).2 := by
    simp only [hlog, Option.get_some]
  have hhandle : c.handle = some 2 := by
    rw [hc]
    rfl
  have hstep : c.tasks[2]? = some ⟨.loop none, .step⟩ := by
    rw [hc]
    rfl
  obtain ⟨⟨d, news⟩, hd⟩ := Option.isSome_iff_exists.mp
    (show (c.happen? (.request Halt.pause.request)).isSome = true by rfl)
  have hd' : d = ((c.happen? (.request Halt.pause.request)).get (by rfl)).1 := by
    simp only [hd, Option.get_some]
  obtain ⟨⟨more, last⟩, hmore⟩ := Option.isSome_iff_exists.mp
    (show (replay d [.stepped 2 (.error .busy)]).isSome = true by subst hd'; subst hc; rfl)
  have hkept := halt_is_kept (.of_replay hlog) hhandle
    (by rw [Std.ExtTreeMap.contains_eq_isSome_getElem?, hstep]; rfl) hd (.of_replay hmore)
  exact ⟨log, c, d, news, more, last, hlog, hhandle, hstep, hd, hmore,
    fun slot => (hkept.1 slot).2, hkept.2.2 _ hstep⟩

end Controller
end SicDebugger
