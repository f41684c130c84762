import SicDebugger.Proofs.Coherence
import SicDebugger.Proofs.Halt

/-!
# The handle

A loop has the handle from when it is made until a pause or a stop takes it away, which asks that
loop to halt if it is still alive. Another loop is only made where none rolls, as long as no reset
overtakes a loop. Up to there a loop that nobody has asked to halt has the handle.
-/

namespace SicDebugger

/-- The number of the next task once an event has taken up its own. -/
def Event.numberAfter (c : Controller) : Event → TaskId
  | request _ => c.nextTask + 1
  | _ => c.nextTask

namespace Controller

/-! ## Who moves the handle -/

/-- The handle, and the number of the next task. -/
def grip (c : Controller) : Option TaskId × TaskId := (c.handle, c.nextTask)

section

variable (c : Controller) (t : TaskId) (role : Role)

@[simp] lemma grip_note (o : Occurrence) : (c.note o).grip = c.grip := rfl

@[simp] lemma grip_publish (m : ViewMessage) : (c.publish m).grip = c.grip := rfl

@[simp] lemma grip_publishOf (build : Session → ViewMessage) :
    (c.publishOf build).grip = c.grip := rfl

@[simp] lemma grip_setState (s : ExecutionState) : (c.setState s).grip = c.grip := rfl

@[simp] lemma grip_suspend (w : Wait) : (c.suspend t role w).grip = c.grip := rfl

@[simp] lemma grip_call (r : SimulatorRequest) (w : Wait) : (c.call t role r w).grip = c.grip := rfl

@[simp] lemma grip_answer (result : Except Error Reply) : (c.answer t result).grip = c.grip := rfl

@[simp] lemma grip_release : c.release.grip = c.grip := by
  unfold release
  split <;> rfl

@[simp] lemma grip_endLoop : (c.endLoop t).grip = c.grip := by
  rw [endLoop_eq]
  rfl

@[simp] lemma grip_conclude (result : Except Error Reply) :
    (c.conclude t role result).grip = c.grip := by
  cases role <;> simp [conclude]

@[simp] lemma grip_reset (result : Except Error Reply) : (c.reset t role result).grip = c.grip :=
  rfl

@[simp] lemma grip_refresh (next : AfterRefresh) : (c.refresh t role next).grip = c.grip := by
  rw [refresh_eq, sendReads_eq]
  rfl

@[simp] lemma grip_takeStep (next : RegisterSnapshot) : (c.takeStep next).grip = c.grip := by
  rw [takeStep_eq]
  rfl

@[simp] lemma grip_takeErrors (files : List LoadedFile) : (c.takeErrors files).grip = c.grip :=
  takeErrors_induction (P := fun d => d.grip = c.grip) rfl fun _ _ hd => hd

@[simp] lemma grip_leaveLoop (halt : Halt) : (c.leaveLoop t halt).grip = c.grip := by
  cases halt <;> simp [leaveLoop]

@[simp] lemma grip_beginTurn (asked : Option Halt) : (c.beginTurn t asked).grip = c.grip := by
  cases asked <;> simp [beginTurn]

@[simp] lemma grip_askHalt (loop : TaskId) (halt : Halt) : (c.askHalt loop halt).grip = c.grip := by
  rw [askHalt_eq]
  rfl

@[simp] lemma grip_load (goal : LoadGoal) : (c.load t goal).grip = c.grip := by
  unfold load
  split <;> simp

@[simp] lemma grip_failLoad (err : Error) : (c.failLoad t err).grip = c.grip := by
  simp [failLoad]

@[simp] lemma grip_startLoop : (c.startLoop t).grip = (some c.nextTask, c.nextTask + 1) := by
  rw [startLoop_eq, grip_conclude]
  rfl

@[simp] lemma grip_afterStep (result : Except Error RegisterSnapshot) :
    (c.afterStep t role result).grip = c.grip := by
  cases result with
  | error err => rfl
  | ok next =>
    rw [afterStep_ok]
    split <;> simp

@[simp] lemma grip_afterLoad (goal : LoadGoal) (result : Except Error LoadOutcome) :
    (c.afterLoad t goal result).grip = c.grip := by
  cases result with
  | error err => exact grip_failLoad c t err
  | ok outcome =>
    cases outcome with
    | loaded registers files => exact grip_refresh _ t .request _
    | failed files => simp [afterLoad_failed]

lemma grip_afterRefresh (next : AfterRefresh) :
    (c.afterRefresh t role next).grip =
      if next = .load .run then (some c.nextTask, c.nextTask + 1) else c.grip := by
  cases next with
  | load goal =>
    cases goal with
    | run => exact grip_startLoop _ t
    | step => exact grip_conclude _ t .request _
  | step verdict =>
    cases role with
    | request => exact grip_conclude _ t .request _
    | loop asked =>
      show (endTurn _ t asked verdict).grip = c.grip
      unfold endTurn
      split <;> simp

end

/-- What becomes of the handle in an event: it stays, a pause or a stop takes it away, or a loop is
made and gets it. -/
inductive Grips (c : Controller) : Event → Option TaskId × TaskId → Prop where
  | kept {e} : Grips c e (c.handle, e.numberAfter c)
  | taken {halt : Halt} : Grips c (.request halt.request) (none, c.nextTask + 1)
  | run (hg : c.guard = none) (hs : c.state = .ready ∨ c.state = .paused) :
      Grips c (.request .run) (some (c.nextTask + 1), c.nextTask + 2)
  | loaded {t : TaskId} {slot result role pending}
      (ht : c.tasks[t]? = some ⟨role, .refresh pending (.load .run)⟩) :
      Grips c (.read t slot result) (some c.nextTask, c.nextTask + 1)

section

variable {log past : List LogEntry} {c d b : Controller} {t l : TaskId} {role : Role} {e : Event}

lemma Grips.guarded {go : Controller → Controller} (hb : b.grip = (c.handle, e.numberAfter c))
    (hgo : b.guard = none → Grips c e (go (b.hold t)).grip) :
    Grips c e (b.guarded t go).grip := by
  unfold Controller.guarded
  split
  · rw [grip_answer, hb]
    exact .kept
  · next hg => exact hgo hg

lemma Grips.haltLoop {halt : Halt} {otherwise : Controller → Controller}
    (hb : b.nextTask = c.nextTask + 1)
    (hgo : Grips c (.request halt.request) (otherwise { b with handle := none }).grip) :
    Grips c (.request halt.request) (b.haltLoop t halt otherwise).grip := by
  unfold Controller.haltLoop
  split
  · split
    · rw [grip_suspend, grip_askHalt, grip, hb]
      exact .taken
    · exact hgo
  · exact hgo

lemma grips_request (c : Controller) (r : ViewRequest) :
    Grips c (.request r) (c.request r).grip := by
  unfold Controller.request
  cases r with
  | run =>
    refine .guarded rfl fun hg => ?_
    dsimp only [Controller.hold]
    split
    · rw [grip_conclude]
      exact .kept
    · rw [grip_conclude]
      exact .kept
    · rw [grip_load]
      exact .kept
    · rw [grip_load]
      exact .kept
    · next hs =>
      rw [grip_startLoop]
      exact .run hg (.inl hs)
    · next hs =>
      rw [grip_startLoop]
      exact .run hg (.inr hs)
  | step =>
    refine .guarded rfl fun hg => ?_
    dsimp only [Controller.hold]
    split
    · rw [grip_conclude]
      exact .kept
    · rw [grip_conclude]
      exact .kept
    · rw [grip_load]
      exact .kept
    · rw [grip_load]
      exact .kept
    · exact .kept
    · exact .kept
  | pause =>
    show Grips c (.request Halt.pause.request) _
    refine .haltLoop rfl ?_
    dsimp only
    split <;> exact .taken
  | stop =>
    show Grips c (.request Halt.stop.request) _
    refine .haltLoop rfl ?_
    dsimp only [Controller.stopNow, Controller.guarded]
    split <;> exact .taken
  | toggleBreakpoint file row => exact .kept
  | selectListing file =>
    dsimp only [selectListing]
    split <;> exact .kept
  | setDelay ms =>
    dsimp only [setDelay]
    split <;> exact .kept
  | setWindow first last =>
    dsimp only [setWindow]
    split
    · exact .kept
    · split <;> exact .kept
  | check texts names =>
    dsimp only [check]
    split <;> exact .kept
  | queryState => exact .kept

lemma grips_resume {task : Task} (hd : c.resume? t task = some d) :
    Grips c (.resumed t) d.grip := by
  rcases resume?_eq_some hd with ⟨asked, _, rfl⟩ | ⟨asked, _, rfl⟩ | ⟨asked, _, _, rfl⟩ |
    ⟨_, _, halt, _, _, rfl⟩
  · rw [grip_beginTurn]
    exact .kept
  · unfold Controller.afterDelay
    split
    · rw [grip_leaveLoop]
      exact .kept
    · exact .kept
    · exact .kept
  · cases asked with
    | none => exact .kept
    | some halt =>
      show Grips c _ (c.release.leaveLoop t halt).grip
      rw [grip_leaveLoop, grip_release]
      exact .kept
  · cases halt with
    | pause => exact .kept
    | stop =>
      dsimp only [Controller.afterLoop, Controller.stopNow, Controller.guarded]
      split <;> exact .kept

lemma grips_afterRead {pending : List PendingRead} {next : AfterRefresh} {slot : Nat}
    {result : Except Error (List UInt8)} (ht : c.tasks[t]? = some ⟨role, .refresh pending next⟩) :
    Grips c (.read t slot result) (c.afterRead t role pending next slot result).grip := by
  unfold Controller.afterRead
  split
  · exact .kept
  · dsimp only
    split
    · rw [grip_afterRefresh]
      split
      · next hrun =>
        subst hrun
        exact .loaded ht
      · exact .kept
    · exact .kept

/-- The handle moves in an event as it can. -/
theorem grips_of_perform (hd : c.perform? e = some d) : Grips c e d.grip := by
  cases e with
  | request r =>
    cases hd
    exact grips_request c r
  | resumed t =>
    obtain ⟨task, _, hd⟩ := perform?_resumed hd
    exact grips_resume hd
  | began t result =>
    rcases perform?_began hd with ⟨_, goal, _, rfl⟩ | ⟨_, outcome, _, rfl⟩
    · cases result with
      | error err => exact grip_failLoad c t err ▸ .kept
      | ok => exact .kept
    · unfold Controller.afterReset
      rw [grip_conclude]
      exact .kept
  | loaded t result =>
    obtain ⟨_, goal, _, rfl⟩ := perform?_loaded hd
    rw [grip_afterLoad]
    exact .kept
  | stepped t result =>
    obtain ⟨role, _, rfl⟩ := perform?_stepped hd
    rw [grip_afterStep]
    exact .kept
  | read t slot result =>
    rcases perform?_read hd with ⟨role, pending, next, ht, _, rfl⟩ | ⟨_, range, _, rfl, rfl⟩
    · exact grips_afterRead ht
    · unfold Controller.afterWindow
      rw [grip_answer, grip_publishOf, grip_release]
      exact .kept
  | checked t result =>
    obtain ⟨_, _, rfl⟩ := perform?_checked hd
    cases result <;> exact .kept

/-! ## Loops that nobody has asked to halt -/

/-- Every loop that nobody has asked to halt has the handle. -/
def Handled (c : Controller) : Prop :=
  ∀ (l : TaskId) (w : Wait), c.tasks[l]? = some ⟨.loop none, w⟩ → c.handle = some l

/-- A loop that nobody has asked to halt was there before, or was made just now. -/
lemma Sound.loop_or_new {w : Wait} (hs : Sound c) (hd : c.perform? e = some d)
    (hl : d.tasks[l]? = some ⟨.loop none, w⟩) :
    (∃ w', c.tasks[l]? = some ⟨.loop none, w'⟩) ∨
      e.numberAfter c ≤ l ∧ l < d.nextTask := by
  have hw := hs.isBy hd
  by_cases hle : l = e.worker c
  · -- the worker has the role that it had
    subst hle
    refine .inl ?_
    rcases hw.own _ hl with hold | ⟨hrole, _⟩
    · exact ⟨w, hold⟩
    · obtain ⟨task, ht⟩ := worker_mem hd fun r he => by
        subst he
        rw [roleOf, Event.worker, hs.nextTask_free] at hrole
        cases hrole
      rw [roleOf_eq ht] at hrole
      exact ⟨task.wait, by rw [ht]; exact congrArg some (by cases task; cases hrole; rfl)⟩
  · rcases hw.others l hle with (hk | ⟨_, _, _, _, hk⟩) | ⟨hlow, hhigh, _⟩
    · exact .inl ⟨w, hk ▸ hl⟩
    · rw [hk, Option.some.injEq] at hl
      cases hl
    · refine .inr ⟨?_, hhigh⟩
      cases e with
      | request r => exact Nat.lt_of_le_of_ne hlow (Ne.symm hle)
      | began | loaded | stepped | read | checked | resumed => exact hlow

/-- No loop rolls where nobody has the guard and a program is ready to run. -/
lemma Calm.still_of_ready (h : Calm log c) (hg : c.guard = none)
    (hst : c.state = .ready ∨ c.state = .paused) : ¬ Rolls c l := by
  intro hr
  rcases h.rolling l hr with hguard | ⟨_, hrun⟩
  · rw [hg] at hguard
    cases hguard
  · rw [hrun] at hst
    rcases hst with hst | hst <;> cases hst

/-- No loop rolls while a program is loaded. -/
lemma Calm.still_of_load {pending : List PendingRead} {goal : LoadGoal} (h : Calm log c)
    (hs : Sound c) (ho : Disciplined log c)
    (ht : c.tasks[t]? = some ⟨role, .refresh pending (.load goal)⟩) : ¬ Rolls c l := by
  intro hr
  have hfits := hs.fits t _ ht
  by_cases hlt : l = t
  · obtain ⟨asked, w, hl, _⟩ := hr
    rw [hlt, ht, Option.some.injEq] at hl
    cases hl
    cases hfits
  · exact (h.alone (ho.inSection t _ ht rfl)).still l hlt hr

/-- An event that finds a controller calm leaves the handle with the loop that nobody has asked to
halt. -/
lemma Handled.perform (h : Handled c) (hs : Sound c) (ho : Disciplined log c) (hcalm : Calm log c)
    (hd : c.perform? e = some d) : Handled d := by
  intro l w hl
  have hgrips := grips_of_perform hd
  have hgrip : d.grip = (d.handle, d.nextTask) := rfl
  rw [hgrip] at hgrips
  generalize hh : d.handle = handle at hgrips
  generalize hn : d.nextTask = number at hgrips
  rcases hs.loop_or_new hd hl with ⟨w', hold⟩ | ⟨hlow, hhigh⟩
  · have hhandle := h l w' hold
    have hrolls : Rolls c l := ⟨none, w', hold, by simp⟩
    cases hgrips with
    | kept => exact hhandle
    | @taken halt =>
      -- the one who takes the handle asks its loop to halt
      obtain rfl : d = c.request halt.request := (Option.some.inj hd).symm
      have halive : c.tasks.contains l = true := by
        rw [Std.ExtTreeMap.contains_eq_isSome_getElem?, hold]
        rfl
      rw [request_halt halt hhandle halive,
        suspend_tasks_of_ne (Nat.ne_of_lt (hs.fresh l _ hold))] at hl
      rw [askHalt_self (c := { c with nextTask := c.nextTask + 1, handle := none }) hold,
        Option.some.injEq] at hl
      cases hl
    | run hg hst => exact absurd hrolls (hcalm.still_of_ready hg hst)
    | loaded ht => exact absurd hrolls (hcalm.still_of_load hs ho ht)
  · rw [hn] at hhigh
    cases hgrips with
    | kept => exact absurd hlow (Nat.not_le.mpr hhigh)
    | taken => exact absurd hlow (Nat.not_le.mpr hhigh)
    | run hg hst => exact congrArg some (Nat.le_antisymm hlow (Nat.le_of_lt_succ hhigh))
    | loaded ht => exact congrArg some (Nat.le_antisymm hlow (Nat.le_of_lt_succ hhigh))

/-! ## All runs -/

/-- An event that finds no loop overtaken, after others of which none did, finds a controller that
is calm. -/
lemma Run.calm {settings : ControllerSettings} (h : Run (.ofSettings settings) log c)
    (hfree : NoneOvertaken (.event c e :: log)) : Calm log c := by
  rcases calm_or_overtaking h fun found e he => hfree found e (.tail _ he) with hcalm | hover
  · exact hcalm
  · exact absurd hover.overtaken (hfree c e (.head _))

/-- As long as no event has found a loop overtaken, a loop that nobody has asked to halt has the
handle. -/
theorem handled_of_run {settings : ControllerSettings} (h : Run (.ofSettings settings) log c)
    (hfree : NoneOvertaken log) : Handled c := by
  induction h with
  | start =>
    intro l w hl
    simp [ofSettings] at hl
  | @next log c d e news hrun hd ih =>
    have hbefore : NoneOvertaken (.event c e :: log) := fun found e he =>
      hfree found e (List.mem_append_right _ he)
    obtain ⟨d', hd', rfl, rfl⟩ := happen?_eq_some hd
    have hhandled : Handled { c with history := [] } :=
      ih fun found e he => hbefore found e (.tail _ he)
    have hnow : Handled d' := hhandled.perform ((sound_of_run hrun).forget [])
      ((disciplined_of_run hrun).forget []) ((hrun.calm hbefore).forget []) hd'
    exact hnow

end

end Controller
end SicDebugger
