import SicDebugger.Proofs.Guard

/-!
# Every event keeps the order of the guard

What the tasks do is put together from few activities. Each of them ends with the task waiting in
the middle of its section, or with the guard given back at the end of one, so each event leaves the
guard in order, and with it every run.
-/

namespace SicDebugger

namespace Controller

variable {log past current : List LogEntry} {c d found : Controller} {t : TaskId} {role : Role}
  {e : Event} {served : Option ViewRequest}

/-! ## Activities with the guard -/

/-- A reset is a section of its own, or goes on with that of a step. -/
lemma Holding.reset {result : Except Error Reply} (h : Holding (c.timeline past) c t current)
    (hr : role.Serves (requestOf past t))
    (hw : Unfinished (requestOf past t) t (.reset result)
      (current ++ [.asked t (.begin c.settings.mode)])) :
    Disciplined ((c.reset t role result).timeline past) (c.reset t role result) :=
  Holding.call (c := c.setState .stopped) (h.congr (fun _ => rfl) rfl rfl rfl rfl) rfl hr hw

lemma Holding.failLoad {e : Error} (h : Holding (c.timeline past) c t current)
    (hc : Section (requestOf past t) t current) :
    Disciplined ((c.failLoad t e).timeline past) (c.failLoad t e) := by
  have hidle : Holding (((c.publish (.notice e.message)).setState .idle).timeline past)
      ((c.publish (.notice e.message)).setState .idle) t current :=
    h.congr (fun _ => rfl) rfl rfl rfl rfl
  exact (hidle.release (.inr hc)).answer

lemma Holding.sendReads (pending : List PendingRead) (h : Holding (c.timeline past) c t current) :
    Holding ((c.sendReads t pending).timeline past) (c.sendReads t pending) t
      (current ++
        pending.map fun p => .occurrence (.sent t p.slot (readRequest p.target.range))) := by
  induction pending generalizing c current with
  | nil =>
    rw [List.map_nil, List.append_nil]
    exact h
  | cons p rest ih =>
    have hsent : Holding ((c.note (.sent t p.slot (readRequest p.target.range))).timeline past)
        (c.note (.sent t p.slot (readRequest p.target.range))) t _ := h.sent rfl
    have hp := ih hsent
    rwa [List.append_assoc] at hp

/-- The reads of a refresh are sent for the session as it is. -/
lemma Holding.refresh {next : AfterRefresh} (h : Holding (c.timeline past) c t current)
    (hr : role.Serves (requestOf past t))
    (ho : Opening (requestOf past t) t current (refreshTargets c.session)) :
    Disciplined ((c.refresh t role next).timeline past) (c.refresh t role next) := by
  refine (h.sendReads (pendingReads (refreshTargets c.session))).suspend hr
    (.refresh ho ⟨[], ?_, ?_⟩ (List.cons_ne_nil _ _))
  · rw [List.map_nil, List.append_nil]
    rfl
  · rw [List.map_nil, List.nil_append, slots_pendingReads]

/-- A new loop has nothing to do with the guard. -/
lemma Holding.withLoop (h : Holding (c.timeline past) c t current) :
    Holding (c.withLoop.timeline past) c.withLoop t current where
  fresh u task hu := by
    by_cases hun : u = c.nextTask
    · exact hun ▸ Nat.lt_succ_self _
    · exact Nat.lt_succ_of_lt (h.fresh u task (withLoop_tasks_of_ne hun ▸ hu))
  numbered u hu := h.numbered u (Nat.le_of_succ_le hu)
  serves u task hut hu := by
    by_cases hun : u = c.nextTask
    · -- the number of the new loop is that of no request
      subst hun
      rw [withLoop_tasks_self, Option.some.injEq] at hu
      rw [← hu]
      exact ⟨fun _ => h.numbered _ (Nat.le_refl _), trivial⟩
    · exact h.serves u task hut (withLoop_tasks_of_ne hun ▸ hu)
  lt := Nat.lt_succ_of_lt h.lt
  guard := h.guard
  others u task hut hu := by
    by_cases hun : u = c.nextTask
    · -- the new loop waits for its first turn
      subst hun
      rw [withLoop_tasks_self, Option.some.injEq] at hu
      rw [← hu]
      rfl
    · exact h.others u task hut (withLoop_tasks_of_ne hun ▸ hu)
  line u hu := by
    obtain ⟨hut, urole, htask⟩ := h.line u hu
    exact ⟨hut, urole, withLoop_tasks_of_ne (Nat.ne_of_lt (h.fresh u _ htask)) ▸ htask⟩
  nodup := h.nodup
  heldBy := h.heldBy
  found := h.found
  tenure := h.tenure
  ended x hx := (h.ended x hx).mono (Nat.le_succ _) fun _ _ => rfl

lemma Holding.startLoop (h : Holding (c.timeline past) c t current)
    (hc : current = [] ∨ Section (requestOf past t) t current) :
    Disciplined ((c.startLoop t).timeline past) (c.startLoop t) := by
  have hrun : Holding ((c.setState .running).timeline past) (c.setState .running) t current :=
    h.congr (fun _ => rfl) rfl rfl rfl rfl
  rw [startLoop_eq]
  exact hrun.withLoop.conclude hc

/-- A load begins a section, or is refused where there is nothing to load. -/
lemma Holding.load {goal : LoadGoal} (h : Holding (c.timeline past) c t [])
    (hs : Loads (requestOf past t)) :
    Disciplined ((c.load t goal).timeline past) (c.load t goal) := by
  unfold Controller.load
  split
  · exact h.conclude (.inl rfl)
  · exact Holding.call (c := c.setState .loading) (h.congr (fun _ => rfl) rfl rfl rfl rfl) rfl
      nofun (.begin hs)

/-! ## Activities without the guard -/

/-- A task without the guard is set to work. Nothing of the event has happened to the guard yet, and
the task carries out a request or is a loop. -/
structure Entering (past : List LogEntry) (c : Controller) (t : TaskId)
    (served : Option ViewRequest) : Prop where
  order : Disciplined (c.timeline past) (c.drop t)
  lt : t < c.nextTask
  found : lastFound? past = some c.guard
  serves : requestOf past t = served

lemma Entering.hold (h : Entering past c t served) (hg : c.guard = none) :
    Holding ((c.hold t).timeline past) (c.hold t) t [] :=
  h.order.hold h.lt hg h.found

lemma Disciplined.beginTurn {asked : Option Halt} (h : Disciplined (c.timeline past) (c.drop t))
    (hlt : t < c.nextTask) (hs : requestOf past t = none) :
    Disciplined ((c.beginTurn t asked).timeline past) (c.beginTurn t asked) := by
  cases asked with
  | some halt => exact h.leaveLoop halt
  | none => exact (Disciplined.suspend (w := .asleep) h hlt rfl (fun _ => hs) trivial).note rfl

/-- A loop that finds the guard taken stands in line behind the others. -/
lemma Entering.standInLine {holder : TaskId} (h : Entering past c t none)
    (hg : c.guard = some holder) :
    Disciplined (({ c with line := c.line ++ [t] }.suspend t role .inLine).timeline past)
      ({ c with line := c.line ++ [t] }.suspend t role .inLine) := by
  obtain ⟨h, hlt, -, hs⟩ := h
  have hout : t ∉ c.line := by
    intro ht
    obtain ⟨_, lrole, htask⟩ := h.line t ht
    exact (drop_tasks_eq_some htask).1 rfl
  refine h.wait hlt rfl ⟨fun _ => hs, hs⟩ ?_ (fun u hu => ?_) ?_
  · intro hnone
    rw [hg] at hnone
    cases hnone
  · rcases List.mem_append.mp hu with hu | hu
    · obtain ⟨hguard, urole, htask⟩ := h.line u hu
      exact ⟨hguard, urole, suspend_tasks_of_drop htask⟩
    · obtain rfl : u = t := List.mem_singleton.mp hu
      refine ⟨?_, role, suspend_tasks_self ..⟩
      -- the order holds without the task, so somebody else has the guard
      intro hgu
      obtain ⟨task, htask, _⟩ := h.holder u hgu
      exact (drop_tasks_eq_some htask).1 rfl
  · rw [List.nodup_append]
    refine ⟨h.nodup, by simp, ?_⟩
    intro u hu v hv huv
    rw [List.mem_singleton.mp hv] at huv
    exact hout (huv ▸ hu)

lemma Entering.afterDelay {asked : Option Halt} (h : Entering past c t none) :
    Disciplined ((c.afterDelay t asked).timeline past) (c.afterDelay t asked) := by
  unfold Controller.afterDelay
  split
  · exact h.order.leaveLoop _
  · next hg => exact (h.hold hg).call rfl (fun _ => h.serves) (.step (.inl h.serves))
  · next hg => exact h.standInLine hg

/-- A request that needs the guard is refused or carried out with it. -/
lemma Entering.guarded {go : Controller → Controller} (h : Entering past c t served)
    (hgo : ∀ c, Holding (c.timeline past) c t [] → Disciplined ((go c).timeline past) (go c)) :
    Disciplined ((c.guarded t go).timeline past) (c.guarded t go) := by
  unfold Controller.guarded
  split
  · exact h.order.answer
  · next hg => exact hgo _ (h.hold hg)

lemma Entering.run (h : Entering past c t (some .run)) :
    Disciplined ((c.run t).timeline past) (c.run t) := by
  refine h.guarded fun c hc => ?_
  cases c.state with
  | running | loading => exact hc.conclude (.inl rfl)
  | idle | stopped => exact hc.load (.inl h.serves)
  | ready | paused => exact hc.startLoop (.inl rfl)

lemma Entering.step (h : Entering past c t (some .step)) :
    Disciplined ((c.step t).timeline past) (c.step t) := by
  refine h.guarded fun c hc => ?_
  cases c.state with
  | running | loading => exact hc.conclude (.inl rfl)
  | idle | stopped => exact hc.load (.inr h.serves)
  | ready | paused =>
    exact Holding.call (c := c.setState .running) (hc.congr (fun _ => rfl) rfl rfl rfl rfl) rfl
      nofun (.step (.inr h.serves))

lemma Entering.stopNow (h : Entering past c t (some .stop)) :
    Disciplined ((c.stopNow t).timeline past) (c.stopNow t) :=
  h.guarded fun _ hc => hc.reset nofun (.reset h.serves)

/-- To ask a loop to halt changes nothing in the kinds of the tasks. -/
lemma askHalt_kinds (c : Controller) (loop : TaskId) (halt : Halt) (u : TaskId) :
    (c.askHalt loop halt).tasks[u]?.map Task.kind = c.tasks[u]?.map Task.kind := by
  rcases askHalt_kept c loop halt u with hk | ⟨_, _, _, hk, hk'⟩
  · rw [hk]
  · rw [hk, hk']
    rfl

lemma ledger_askHalt (c : Controller) (loop : TaskId) (halt : Halt) (past : List LogEntry) :
    ledger ((c.askHalt loop halt).timeline past) = ledger (c.timeline past) := by
  rcases askHalt_timeline c loop halt past with hsame | hwoken
  · rw [hsame]
  · rw [hwoken]
    exact ledger_of_not_isCall rfl

/-- A halting request waits for the loop, or goes on by itself without the handle. -/
lemma Entering.haltLoop {halt : Halt} {otherwise : Controller → Controller}
    (h : Entering past c t served) (hs : ∀ loop, Wait.Serves served (.loopEnd loop halt))
    (hgo : ∀ c, Entering past c t served →
      Disciplined ((otherwise c).timeline past) (otherwise c)) :
    Disciplined ((c.haltLoop t halt otherwise).timeline past) (c.haltLoop t halt otherwise) := by
  have htaken : Entering past { c with handle := none } t served :=
    ⟨h.order.congr (fun _ => rfl) rfl rfl (Nat.le_refl _) rfl, h.lt, h.found, h.serves⟩
  unfold Controller.haltLoop
  split
  · next loop _ =>
    split
    · -- the loop that is asked keeps its place, whether it is the request's own number or not
      have hasked := askHalt_eq { c with handle := none } loop halt
      refine Disciplined.suspend ?_ ?_ rfl nofun ?_
      · refine h.order.congr (fun u => ?_) (by rw [hasked]; rfl) (by rw [hasked]; rfl)
          (by rw [hasked]; exact Nat.le_refl _) (ledger_askHalt _ loop halt past)
        by_cases hut : u = t
        · rw [hut, drop_tasks_self, drop_tasks_self]
        · rw [drop_tasks_of_ne hut, drop_tasks_of_ne hut]
          exact askHalt_kinds _ loop halt u
      · rw [hasked]
        exact h.lt
      · rw [h.serves]
        exact hs loop
    · exact hgo _ htaken
  · exact hgo _ htaken

lemma Entering.pause (h : Entering past c t (some .pause)) :
    Disciplined ((c.pause t).timeline past) (c.pause t) := by
  refine h.haltLoop (fun _ => trivial) fun c hc => ?_
  cases c.state <;> exact hc.order.answer

lemma Entering.stop (h : Entering past c t (some .stop)) :
    Disciplined ((c.stop t).timeline past) (c.stop t) :=
  h.haltLoop (fun _ => rfl) fun _ hc => hc.stopNow

/-- A change of the session that is told to the views leaves the order of the guard alone. -/
lemma Disciplined.withSession {f : Session → Session}
    (h : Disciplined (c.timeline past) (c.drop t)) :
    Disciplined ((c.withSession f).timeline past) ((c.withSession f).drop t) :=
  h.congr (fun _ => rfl) rfl rfl (Nat.le_refl _) rfl

lemma Disciplined.publish {m : ViewMessage} (h : Disciplined (c.timeline past) (c.drop t)) :
    Disciplined ((c.publish m).timeline past) ((c.publish m).drop t) :=
  h.congr (fun _ => rfl) rfl rfl (Nat.le_refl _) rfl

lemma Entering.setWindow {first last : UInt32}
    (h : Entering past c t (some (.setWindow first last))) :
    Disciplined ((c.setWindow t first last).timeline past) (c.setWindow t first last) := by
  unfold Controller.setWindow
  split
  · exact h.order.answer
  · next range hrange =>
    have hmoved : Entering past (c.withSession (·.setWindow range)) t _ :=
      ⟨h.order.withSession, h.lt, h.found, h.serves⟩
    dsimp only
    split
    · next hfree => exact (hmoved.hold hfree.2).call rfl nofun (.windowRead h.serves hrange)
    · exact hmoved.order.publish.answer

/-- A request of a view is carried out by a new task. -/
lemma Entering.request {r : ViewRequest}
    (h : Entering past { c with nextTask := c.nextTask + 1 } c.nextTask (some r)) :
    Disciplined ((c.request r).timeline past) (c.request r) := by
  unfold Controller.request
  cases r with
  | run => exact h.run
  | step => exact h.step
  | pause => exact h.pause
  | stop => exact h.stop
  | toggleBreakpoint file row => exact h.order.withSession.publish.answer
  | selectListing file =>
    dsimp only [selectListing]
    split
    · exact h.order.withSession.publish.answer
    · exact h.order.answer
  | setDelay ms =>
    dsimp only [setDelay]
    split
    · exact Disciplined.answer (h.order.congr (fun _ => rfl) rfl rfl (Nat.le_refl _) rfl)
    · exact h.order.answer
  | setWindow first last => exact h.setWindow
  | check texts names =>
    dsimp only [check]
    split
    · exact h.order.answer
    · refine Disciplined.suspend ?_ h.lt rfl nofun trivial
      exact h.order.congr (fun _ => rfl) rfl rfl (Nat.le_refl _) rfl
  | queryState => exact h.order.answer

/-! ## Answers of the simulator -/

/-- An event that takes up no request sets the task to work that has the guard, with what it has of
its section. The event goes to the end of the section if it is an answer. -/
lemma Disciplined.arrive {w : Wait} (h : Disciplined log c) (hg : found.guard = c.guard)
    (ht : c.tasks[t]? = some ⟨role, w⟩) (hguard : c.guard = some t) (he : ∀ r, e ≠ .request r) :
    ∃ current, Unfinished (requestOf (.event found e :: log) t) t w current ∧
      Holding (.event found e :: log) c t
        (current ++ [LogEntry.event found e].filter LogEntry.isCall) := by
  obtain ⟨task, htask, hun, hheld⟩ := h.holder t hguard
  rw [ht, Option.some.injEq] at htask
  subst htask
  have hrequests (u : TaskId) : requestOf (.event found e :: log) u = requestOf log u :=
    requestOf_of_not_request he u
  have hfound : found.guard = some t := hg.trans hguard
  have htenure : tenures (.event found e :: log) (some t) = _ := tenures_of_held hfound (some t)
  have hended := endedTenures_of_eq htenure
  refine ⟨callsSoFar log t, (hrequests t).symm ▸ hun, ?_⟩
  exact {
    fresh := h.fresh
    numbered := fun u hu => (hrequests u).trans (h.numbered u hu)
    serves := fun u task _ hu => (hrequests u).symm ▸ h.serves u task hu
    lt := h.fresh t _ ht
    guard := hguard
    others := fun u task hut hu => by
      cases hin : task.wait.isInSection with
      | false => rfl
      | true =>
        exact absurd (Option.some.inj ((h.inSection u task hu hin).symm.trans hguard)) hut
    line := fun u hu => by
      obtain ⟨hgu, hrole⟩ := h.line u hu
      exact ⟨fun hut => hgu (hut ▸ hguard), hrole⟩
    nodup := h.nodup
    heldBy := fun found' e' he' => by
      rcases List.mem_append.mp he' with he' | he'
      · exact hheld found' e' he'
      · obtain ⟨rfl, rfl⟩ : found' = found ∧ e' = e := by
          simpa using (List.mem_filter.mp he').1
        exact hfound
    found := .inl (congrArg some hfound)
    tenure := hended ▸ htenure
    ended := fun x hx => by
      rw [hended, ← hguard] at hx
      exact (h.ended x hx).mono (Nat.le_refl _) fun u _ => hrequests u }

lemma Holding.afterBegin {goal : LoadGoal} {result : Except Error Unit}
    (h : Holding (c.timeline past) c t (current ++ [.event found (.began t result)]))
    (hw : Unfinished (requestOf past t) t (.begin goal) current) :
    Disciplined ((c.afterBegin t goal result).timeline past) (c.afterBegin t goal result) := by
  cases hw with
  | begin hs =>
    cases result with
    | error e => exact h.failLoad (.beginFailed hs)
    | ok => exact h.call rfl nofun (.load hs)

lemma Holding.afterReset {outcome : Except Error Reply} {result : Except Error Unit}
    (h : Holding (c.timeline past) c t (current ++ [.event found (.began t result)]))
    (hw : Unfinished (requestOf past t) t (.reset outcome) current) :
    Disciplined ((c.afterReset t role outcome).timeline past) (c.afterReset t role outcome) := by
  refine Holding.conclude (h.congr (fun _ => rfl) rfl rfl rfl rfl) (.inr ?_)
  cases hw with
  | reset hs => exact .reset hs
  | ended hs hends => exact .ended hs hends

lemma Holding.afterLoad {goal : LoadGoal} {result : Except Error LoadOutcome}
    (h : Holding (c.timeline past) c t (current ++ [.event found (.loaded t result)]))
    (hf : found.session = c.session) (hw : Unfinished (requestOf past t) t (.load goal) current) :
    Disciplined ((c.afterLoad t goal result).timeline past) (c.afterLoad t goal result) := by
  cases hw with
  | load hs =>
    cases result with
    | error e => exact h.failLoad (.loadFailed hs fun _ _ hr => by cases hr)
    | ok outcome =>
      cases outcome with
      | loaded registers files =>
        refine Holding.refresh (h.congr (fun _ => rfl) rfl rfl rfl rfl) nofun ?_
        -- the reads are those that the session needs with the answer applied to what it was then
        show Opening _ t _ (refreshTargets (c.session.applyLoaded registers files))
        rw [← hf]
        exact .load hs
      | failed files =>
        have htaken : Holding ((c.takeErrors files).timeline past) (c.takeErrors files) t _ :=
          takeErrors_induction (P := fun d => Holding (d.timeline past) d t _)
            (h.congr (fun _ => rfl) rfl rfl rfl rfl)
            fun _ _ hd => hd.congr (fun _ => rfl) rfl rfl rfl rfl
        have hidle : Holding (((c.takeErrors files).setState .idle).timeline past)
            ((c.takeErrors files).setState .idle) t _ := htaken.congr (fun _ => rfl) rfl rfl rfl rfl
        rw [afterLoad_failed]
        exact hidle.conclude (.inr (.loadFailed hs fun _ _ hr => by cases hr))

lemma Holding.afterStep {result : Except Error RegisterSnapshot}
    (h : Holding (c.timeline past) c t (current ++ [.event found (.stepped t result)]))
    (hf : found.session = c.session) (hr : role.Serves (requestOf past t))
    (hw : Unfinished (requestOf past t) t .step current) :
    Disciplined ((c.afterStep t role result).timeline past) (c.afterStep t role result) := by
  cases hw with
  | step hs =>
    cases result with
    | error e =>
      exact Holding.reset (c := c.publish (.notice e.message))
        (h.congr (fun _ => rfl) rfl rfl rfl rfl) hr (.ended hs trivial)
    | ok next =>
      have htaken : Holding ((c.takeStep next).timeline past) (c.takeStep next) t
          ([.asked t .step] ++ [.event found (.stepped t (.ok next))]) :=
        takeStep_induction (P := fun d => Holding (d.timeline past) d t _)
          (h.congr (fun _ => rfl) rfl rfl rfl rfl)
          fun _ _ hd => hd.congr (fun _ => rfl) rfl rfl rfl rfl
      have hopen (hv : (c.session.applyStep next).2.verdict ≠ .finished) :
          Opening (requestOf past t) t ([.asked t .step] ++ [.event found (.stepped t (.ok next))])
            (refreshTargets (c.takeStep next).session) := by
        rw [takeStep_eq, ← hf]
        exact .step hs (hf ▸ hv)
      rw [afterStep_ok]
      split
      · next hv =>
        exact htaken.reset hr (.ended hs (by simpa only [EndsProgram, hf] using hv))
      · next hv =>
        exact htaken.refresh hr (hopen hv)

/-- With one more answer to a read, one read less is pending. -/
lemma slots_filter_perm {pending : List PendingRead} {slot : Nat}
    (hn : (pending.map (·.slot)).Nodup) (hs : slot ∈ pending.map (·.slot)) :
    (slot :: (pending.filter (·.slot != slot)).map (·.slot)).Perm (pending.map (·.slot)) := by
  have hfilter : (pending.filter (·.slot != slot)).map (·.slot) =
      (pending.map (·.slot)).erase slot := by
    rw [hn.erase_eq_filter, List.filter_map]
    rfl
  rw [hfilter]
  exact (List.perm_cons_erase hs).symm

lemma ReadsSoFar.answer {targets : List ReadTarget} {pending : List PendingRead}
    {entries : List LogEntry} {slot : Nat} (h : ReadsSoFar t targets pending entries)
    (hs : slot ∈ pending.map (·.slot)) (found : Controller)
    (result : Except Error (List UInt8)) :
    ReadsSoFar t targets (pending.filter (·.slot != slot))
      (entries ++ [.event found (.read t slot result)]) := by
  obtain ⟨answers, rfl, hperm⟩ := h
  refine ⟨answers ++ [⟨found, slot, result⟩], by simp [ReadAnswer.entry], ?_⟩
  have hnodup : (pending.map (·.slot)).Nodup :=
    (List.nodup_append.mp (hperm.nodup_iff.mpr List.nodup_range)).2.1
  refine List.Perm.trans ?_ hperm
  rw [List.map_append, List.append_assoc]
  exact (slots_filter_perm hnodup hs).append_left _

lemma ReadsSoFar.reads {targets : List ReadTarget} {entries : List LogEntry}
    (h : ReadsSoFar t targets [] entries) : Reads t targets entries := by
  obtain ⟨answers, he, hperm⟩ := h
  exact ⟨answers, he, by simpa using hperm⟩

lemma Holding.endTurn {asked : Option Halt} {verdict : StepVerdict}
    (h : Holding (c.timeline past) c t current) (hc : Section (requestOf past t) t current)
    (hs : requestOf past t = none) :
    Disciplined ((c.endTurn t asked verdict).timeline past) (c.endTurn t asked verdict) := by
  have hpaused : Holding ((c.setState .paused).timeline past) (c.setState .paused) t current :=
    h.congr (fun _ => rfl) rfl rfl rfl rfl
  have hlt : t < c.release.nextTask := by
    unfold Controller.release
    split <;> exact h.lt
  unfold Controller.endTurn
  split
  · exact (h.release (.inr hc)).beginTurn hlt hs
  · exact hpaused.conclude (.inr hc)

lemma Holding.afterRefresh {next : AfterRefresh} (h : Holding (c.timeline past) c t current)
    (hr : role.Serves (requestOf past t)) (hc : Section (requestOf past t) t current) :
    Disciplined ((c.afterRefresh t role next).timeline past) (c.afterRefresh t role next) := by
  have htold : Holding (((c.publishOf ViewMessage.ofMemory).publishOf
      ViewMessage.ofWatches).timeline past)
      ((c.publishOf ViewMessage.ofMemory).publishOf ViewMessage.ofWatches) t current :=
    h.congr (fun _ => rfl) rfl rfl rfl rfl
  have hset (s : ExecutionState) : Holding ((((c.publishOf ViewMessage.ofMemory).publishOf
      ViewMessage.ofWatches).setState s).timeline past)
      (((c.publishOf ViewMessage.ofMemory).publishOf ViewMessage.ofWatches).setState s) t current :=
    htold.congr (fun _ => rfl) rfl rfl rfl rfl
  cases next with
  | load goal =>
    cases goal with
    | run => exact (hset .ready).startLoop (.inr hc)
    | step => exact (hset .ready).conclude (.inr hc)
  | step verdict =>
    cases role with
    | request => exact (hset .paused).conclude (.inr hc)
    | loop asked => exact htold.endTurn hc (hr rfl)

lemma Holding.afterRead {pending : List PendingRead} {next : AfterRefresh} {slot : Nat}
    {result : Except Error (List UInt8)}
    (h : Holding (c.timeline past) c t (current ++ [.event found (.read t slot result)]))
    (hs : slot ∈ pending.map (·.slot)) (hr : role.Serves (requestOf past t))
    (hw : Unfinished (requestOf past t) t (.refresh pending next) current) :
    Disciplined ((c.afterRead t role pending next slot result).timeline past)
      (c.afterRead t role pending next slot result) := by
  obtain ⟨q, hq⟩ := find?_slot_eq_some hs
  cases hw with
  | refresh hopen hreads _ =>
    have hmore := ReadsSoFar.answer hreads hs found result
    have hstored : Holding ((c.withSession (storeRead · q.target result)).timeline past)
        (c.withSession (storeRead · q.target result)) t _ :=
      h.congr (fun _ => rfl) rfl rfl rfl rfl
    rw [List.append_assoc] at hstored
    unfold Controller.afterRead
    rw [hq]
    dsimp only
    split
    · -- the last answer makes the section complete
      next hempty =>
      rw [List.isEmpty_iff.mp hempty] at hmore
      exact hstored.afterRefresh hr (.refreshed hopen (ReadsSoFar.reads hmore))
    · next hleft =>
      exact hstored.suspend hr
        (.refresh hopen hmore fun hnil => hleft (List.isEmpty_iff.mpr hnil))

lemma Holding.afterWindow {range : AddressRange} {result : Except Error (List UInt8)}
    (h : Holding (c.timeline past) c t (current ++ [.event found (.read t 0 result)]))
    (hw : Unfinished (requestOf past t) t (.windowRead range) current) :
    Disciplined ((c.afterWindow t range result).timeline past) (c.afterWindow t range result) := by
  have hstored : Holding ((c.withSession (storeRead · (.window range) result)).timeline past)
      (c.withSession (storeRead · (.window range) result)) t _ :=
    h.congr (fun _ => rfl) rfl rfl rfl rfl
  cases hw with
  | windowRead hs hrange =>
    exact (hstored.release (.inr (.windowRead hs hrange))).publish.answer

/-! ## All events -/

/-- An event that is no answer leaves the guard in order. A request can have a new number. -/
lemma Disciplined.meet {bound : TaskId} (h : Disciplined log c) (hg : found.guard = c.guard)
    (he : (LogEntry.event found e).isCall = false) (hb : c.nextTask ≤ bound)
    (hold : ∀ u < c.nextTask, requestOf (.event found e :: log) u = requestOf log u)
    (hnew : ∀ u, bound ≤ u → requestOf (.event found e :: log) u = none) :
    Disciplined (.event found e :: log) { c with nextTask := bound } where
  fresh u task hu := Nat.lt_of_lt_of_le (h.fresh u task hu) hb
  numbered := hnew
  serves u task hu := by
    rw [hold u (h.fresh u task hu)]
    exact h.serves u task hu
  inSection := h.inSection
  holder u hu := by
    obtain ⟨task, htask, hrest⟩ := h.holder u hu
    rw [hold u (h.fresh u task htask), callsSoFar_of_not_isCall (hg.trans hu) he]
    exact ⟨task, htask, hrest⟩
  ended x hx := by
    rw [show ({ c with nextTask := bound } : Controller).guard = found.guard from hg.symm] at hx
    rcases mem_endedTenures_of_not_isCall he hx with hnone | hx
    · exact .inl hnone
    · exact (h.ended x (hg ▸ hx)).mono hb hold
  unheld := h.unheld
  line := h.line
  nodup := h.nodup

/-- A request that an event takes up is carried out by a task with a number of its own. -/
lemma Disciplined.enter {r : ViewRequest} (hc : c = { found with history := [] })
    (h : Disciplined log c) : Entering (.event found (.request r) :: log)
      { c with nextTask := c.nextTask + 1 } c.nextTask (some r) := by
  have hnext : found.nextTask = c.nextTask := by rw [hc]
  have hmet : Disciplined (.event found (.request r) :: log)
      { c with nextTask := c.nextTask + 1 } := by
    refine h.meet (by rw [hc]) rfl (Nat.le_succ _) (fun u hu => ?_) fun u hu => ?_
    · rw [requestOf_request, hnext, if_neg (Nat.ne_of_gt hu)]
    · rw [requestOf_request, hnext, if_neg (Nat.ne_of_lt hu)]
      exact h.numbered u (Nat.le_of_succ_le hu)
  refine ⟨?_, Nat.lt_succ_self _, by rw [hc]; rfl, by rw [requestOf_request, if_pos hnext]⟩
  have hfree : ∀ task, c.tasks[c.nextTask]? = some task → task.wait.isFree = true :=
    fun task ht => absurd (h.fresh _ task ht) (Nat.lt_irrefl _)
  rw [hc] at hmet ⊢
  exact hmet.drop (hc ▸ hfree)

/-- A task that goes on by itself starts from where the guard is in order without it, or has it. -/
lemma Disciplined.resume {task : Task} (hc : c = { found with history := [] })
    (h : Disciplined log c) (ht : c.tasks[t]? = some task) (hd : c.resume? t task = some d) :
    Disciplined (d.timeline (.event found (.resumed t) :: log)) d := by
  have hguard : found.guard = c.guard := by rw [hc]
  have htime (log : List LogEntry) : log = c.timeline log := by rw [hc]; rfl
  have hrequests (u : TaskId) :
      requestOf (.event found (.resumed t) :: log) u = requestOf log u := rfl
  have hmet : Disciplined (.event found (.resumed t) :: log) c :=
    h.meet hguard rfl (Nat.le_refl _) (fun _ _ => rfl) h.numbered
  have henter (hw : task.wait.isFree = true) {served : Option ViewRequest}
      (hs : requestOf log t = served) : Entering (.event found (.resumed t) :: log) c t served := by
    refine ⟨?_, h.fresh t task ht, congrArg some hguard, hs⟩
    rw [← htime]
    refine hmet.drop fun task' ht' => ?_
    rw [ht, Option.some.injEq] at ht'
    exact ht' ▸ hw
  obtain ⟨hrole, hwait⟩ := h.serves t task ht
  rcases resume?_eq_some hd with ⟨asked, rfl, rfl⟩ | ⟨asked, rfl, rfl⟩ | ⟨asked, rfl, hg, rfl⟩ |
    ⟨_, loop, halt, rfl, _, rfl⟩
  · exact (henter rfl rfl).order.beginTurn (h.fresh t _ ht) (hrole rfl)
  · exact (henter rfl (hrole rfl)).afterDelay
  · -- a loop that was in line has the guard by now, with nothing in its section
    obtain ⟨current, hun, hholding⟩ := h.arrive (e := .resumed t) hguard ht hg nofun
    rw [htime (_ :: log)] at hholding
    have hs : requestOf log t = none := hwait
    cases hun
    cases asked with
    | none => exact hholding.call rfl (fun _ => hs) (.step (.inl hs))
    | some halt => exact (hholding.release (.inl rfl)).leaveLoop halt
  · cases halt with
    | pause => exact (henter rfl rfl).order.answer
    | stop => exact (henter rfl hwait).stopNow

/-- Every event keeps the order of the guard. -/
theorem Disciplined.perform (hc : c = { found with history := [] }) (h : Disciplined log c)
    (hd : c.perform? e = some d) : Disciplined (d.timeline (.event found e :: log)) d := by
  have hguard : found.guard = c.guard := by rw [hc]
  have hsession : found.session = c.session := by rw [hc]
  have htime (log : List LogEntry) : log = c.timeline log := by rw [hc]; rfl
  -- the answer to a call finds the guard with its task
  have harrive {t : TaskId} {role : Role} {w : Wait} (ht : c.tasks[t]? = some ⟨role, w⟩)
      (hw : w.isInSection = true) (he : ∀ r, e ≠ .request r) :
      ∃ current, Unfinished (requestOf (.event found e :: log) t) t w current ∧
        role.Serves (requestOf (.event found e :: log) t) ∧
        Holding (c.timeline (.event found e :: log)) c t
          (current ++ [LogEntry.event found e].filter LogEntry.isCall) := by
    obtain ⟨current, hun, hholding⟩ := h.arrive hguard ht (h.inSection t _ ht hw) he
    refine ⟨current, hun, ?_, htime (_ :: log) ▸ hholding⟩
    rw [requestOf_of_not_request he]
    exact (h.serves t _ ht).1
  cases e with
  | request r =>
    cases hd
    exact (h.enter hc).request
  | resumed t =>
    obtain ⟨task, ht, hd⟩ := perform?_resumed hd
    exact h.resume hc ht hd
  | began t result =>
    rcases perform?_began hd with ⟨role, goal, ht, rfl⟩ | ⟨role, outcome, ht, rfl⟩
    · obtain ⟨current, hun, _, hholding⟩ := harrive ht rfl nofun
      exact Holding.afterBegin hholding hun
    · obtain ⟨current, hun, _, hholding⟩ := harrive ht rfl nofun
      exact Holding.afterReset hholding hun
  | loaded t result =>
    obtain ⟨role, goal, ht, rfl⟩ := perform?_loaded hd
    obtain ⟨current, hun, _, hholding⟩ := harrive ht rfl nofun
    exact Holding.afterLoad hholding hsession hun
  | stepped t result =>
    obtain ⟨role, ht, rfl⟩ := perform?_stepped hd
    obtain ⟨current, hun, hrole, hholding⟩ := harrive ht rfl nofun
    exact Holding.afterStep hholding hsession hrole hun
  | read t slot result =>
    rcases perform?_read hd with ⟨role, pending, next, ht, hs, rfl⟩ | ⟨role, range, ht, rfl, rfl⟩
    · obtain ⟨current, hun, hrole, hholding⟩ := harrive ht rfl nofun
      exact Holding.afterRead hholding hs hrole hun
    · obtain ⟨current, hun, _, hholding⟩ := harrive ht rfl nofun
      exact Holding.afterWindow hholding hun
  | checked t result =>
    obtain ⟨role, ht, rfl⟩ := perform?_checked hd
    have hmet : Disciplined (.event found (.checked t result) :: log) c :=
      h.meet hguard rfl (Nat.le_refl _) (fun _ _ => rfl) h.numbered
    have hdrop : Disciplined (c.timeline (.event found (.checked t result) :: log)) (c.drop t) := by
      rw [← htime]
      refine hmet.drop fun task ht' => ?_
      rw [ht, Option.some.injEq] at ht'
      exact ht' ▸ rfl
    cases result with
    | error e => exact hdrop.answer
    | ok files => exact hdrop.withSession.publish.answer

/-- The guard is in order wherever a run from the settings ends. -/
theorem disciplined_of_run {settings : ControllerSettings} (h : Run (.ofSettings settings) log c) :
    Disciplined log c := by
  refine h.invariant (fun _ hlog => hlog.congr (fun _ => rfl) rfl rfl (Nat.le_refl _) rfl) ?_
    (fun found hc hlog hd => hlog.perform hc hd)
  exact {
    fresh := fun u task hu => by simp [ofSettings] at hu
    numbered := fun _ _ => rfl
    serves := fun u task hu => by simp [ofSettings] at hu
    inSection := fun u task hu => by simp [ofSettings] at hu
    holder := fun t ht => by cases ht
    ended := fun x hx => by cases hx
    unheld := fun _ => rfl
    line := fun u hu => by cases hu
    nodup := List.nodup_nil }

end Controller
end SicDebugger
