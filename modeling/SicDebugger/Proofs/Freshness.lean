import SicDebugger.Proofs.Discipline
import SicDebugger.Proofs.Tidings
import SicDebugger.Proofs.WatchHistory

/-!
# Fresh bytes

The bytes of the memory window and of the variables are answers to reads. The task that waits for
reads has the guard, so nothing is begun, loaded or stepped before they are answered, and no answer
is older than the program that it is kept for. The window can be moved meanwhile, and an answer for
the range that it had before is then turned away.
-/

namespace SicDebugger

/-! ## Reads that are waited for -/

/-- The reads that a task waits for. -/
def Wait.reads : Wait → List PendingRead
  | .refresh pending _ => pending
  | .windowRead range => [⟨0, .window range⟩]
  | _ => []

lemma Wait.isInSection_of_mem_reads {w : Wait} {p : PendingRead} (h : p ∈ w.reads) :
    w.isInSection = true := by
  cases w <;> first | rfl | cases h

/-- A task that waits for reads is set to work by the answer to one. -/
lemma Wait.accepts_of_mem_reads {w : Wait} {p : PendingRead} {e : Event} (h : p ∈ w.reads)
    (he : w.accepts e = true) : ∃ t slot result, e = .read t slot result := by
  cases e with
  | read t slot result => exact ⟨t, slot, result, rfl⟩
  | _ =>
    cases w <;> first | exact absurd he Bool.false_ne_true | exact absurd h List.not_mem_nil

/-- A read that refreshes variables is that of a declared one. -/
lemma WatchRegistry.mem_reads {w : WatchRegistry} {r : WatchRead} :
    r ∈ w.reads ↔ ∃ e ∈ w.entries, e.declared.address = r.address ∧
      e.declared.range? = some r.range := by
  rw [WatchRegistry.reads, List.mem_filterMap]
  refine exists_congr fun e => and_congr_right fun _ => ?_
  rw [Option.map_eq_some_iff]
  exact ⟨fun ⟨_, hrange, he⟩ => he ▸ ⟨rfl, hrange⟩, fun ⟨ha, hrange⟩ => ⟨_, hrange, by rw [ha]⟩⟩

/-! ## Reads in a log -/

/-- Whether an entry of the log can come between the sending of a read and its answer: it begins,
loads and steps nothing, and it is not about that read. -/
def LogEntry.Passes (t : TaskId) (slot : Nat) : LogEntry → Prop
  | .occurrence (.sent _ _ (.begin _)) => False
  | .occurrence (.sent _ _ (.load _)) => False
  | .occurrence (.sent _ _ .step) => False
  | .occurrence (.sent u i _) => ¬ (u = t ∧ i = slot)
  | .event _ (.began ..) => False
  | .event _ (.loaded ..) => False
  | .event _ (.stepped ..) => False
  | .event _ (.read u i _) => ¬ (u = t ∧ i = slot)
  | _ => True

/-- Whether an entry of the log replaces or clears what was loaded: a load has brought a program, or
the begin of a reset has been answered. -/
def LogEntry.StartsOver : LogEntry → Prop
  | .event _ (.loaded _ (.ok (.loaded ..))) => True
  | .event found (.began t _) => ∃ role outcome, found.tasks[t]? = some ⟨role, .reset outcome⟩
  | _ => False

open Controller

/-- A task has sent a read of a range under a slot, and nothing has come since that cannot come
before the answer. -/
def UnderWay (log : List LogEntry) (t : TaskId) (slot : Nat) (range : AddressRange) : Prop :=
  ∃ since before, log = since ++ .occurrence (.sent t slot (readRequest range)) :: before ∧
    ∀ x ∈ since, x.Passes t slot

/-- Bytes are the answer to a read of a range, sent since what is loaded was last replaced or
cleared. -/
def AnsweredSince (log : List LogEntry) (range : AddressRange) (bytes : List UInt8) : Prop :=
  ∃ later found t slot earlier, log = later ++ .event found (.read t slot (.ok bytes)) :: earlier ∧
    UnderWay earlier t slot range ∧ ∀ x ∈ later, ¬ x.StartsOver

section

variable {log more : List LogEntry} {t : TaskId} {slot : Nat} {range : AddressRange}
  {bytes : List UInt8}

lemma UnderWay.sent :
    UnderWay (.occurrence (.sent t slot (readRequest range)) :: log) t slot range :=
  ⟨[], log, rfl, fun x hx => by cases hx⟩

lemma UnderWay.append (h : UnderWay log t slot range) (hpass : ∀ x ∈ more, x.Passes t slot) :
    UnderWay (more ++ log) t slot range := by
  obtain ⟨since, before, rfl, hsince⟩ := h
  refine ⟨more ++ since, before, by rw [List.append_assoc], fun x hx => ?_⟩
  rcases List.mem_append.mp hx with hx | hx
  · exact hpass x hx
  · exact hsince x hx

lemma not_startsOver_occurrence {news : List Occurrence} :
    ∀ x ∈ news.map LogEntry.occurrence, ¬ x.StartsOver := by
  intro x hx
  obtain ⟨o, _, rfl⟩ := List.mem_map.mp hx
  exact id

/-- A read that is under way is answered. -/
lemma UnderWay.answered {found : Controller} {news : List Occurrence}
    (h : UnderWay log t slot range) :
    AnsweredSince (news.map .occurrence ++ .event found (.read t slot (.ok bytes)) :: log) range
      bytes :=
  ⟨_, found, t, slot, log, rfl, h, not_startsOver_occurrence⟩

lemma AnsweredSince.append (h : AnsweredSince log range bytes)
    (hkeep : ∀ x ∈ more, ¬ x.StartsOver) : AnsweredSince (more ++ log) range bytes := by
  obtain ⟨later, found, t, slot, earlier, rfl, hway, hlater⟩ := h
  refine ⟨more ++ later, found, t, slot, earlier, by rw [List.append_assoc], hway, fun x hx => ?_⟩
  rcases List.mem_append.mp hx with hx | hx
  · exact hkeep x hx
  · exact hlater x hx

lemma AnsweredSince.event {found : Controller} {e : Event} {news : List Occurrence}
    (h : AnsweredSince log range bytes) (he : ¬ (LogEntry.event found e).StartsOver) :
    AnsweredSince (news.map .occurrence ++ .event found e :: log) range bytes := by
  have hcons : AnsweredSince ([.event found e] ++ log) range bytes :=
    h.append fun x hx => List.mem_singleton.mp hx ▸ he
  exact hcons.append not_startsOver_occurrence

/-- What can come before the answer to a read does not replace or clear what is loaded. -/
lemma LogEntry.Passes.not_startsOver {x : LogEntry} (h : x.Passes t slot) : ¬ x.StartsOver := by
  cases x with
  | occurrence o => exact id
  | event found e =>
    cases e with
    | began | loaded => exact h.elim
    | request | stepped | read | checked | resumed => exact id

end

namespace Controller

/-- The reads that a task of the controller waits for. -/
def reads (c : Controller) (t : TaskId) : List PendingRead := c.tasks[t]?.elim [] (·.wait.reads)

variable {log past : List LogEntry} {c d found : Controller} {t : TaskId} {role : Role} {e : Event}
  {p : PendingRead}

lemma mem_reads : p ∈ c.reads t ↔ ∃ role w, c.tasks[t]? = some ⟨role, w⟩ ∧ p ∈ w.reads := by
  rw [reads]
  cases c.tasks[t]? with
  | none => simp
  | some task =>
    refine ⟨fun hp => ⟨task.role, task.wait, rfl, hp⟩, ?_⟩
    rintro ⟨role, w, htask, hp⟩
    cases htask
    exact hp

/-! ## Reads that are sent -/

lemma timeline_sendReads (c : Controller) (t : TaskId) (pending : List PendingRead) :
    (c.sendReads t pending).timeline past =
      (pending.map fun p => .occurrence (.sent t p.slot (readRequest p.target.range))).reverse ++
        c.timeline past := by
  induction pending generalizing c with
  | nil => rfl
  | cons q rest ih =>
    show ((c.note _).sendReads t rest).timeline past = _
    rw [ih, List.map_cons, List.reverse_cons, List.append_assoc]
    rfl

/-- All reads of a task are under way once they are sent, under different slots. -/
lemma underWay_sendReads {pending : List PendingRead} (hslots : (pending.map (·.slot)).Nodup)
    (hp : p ∈ pending) :
    UnderWay ((c.sendReads t pending).timeline past) t p.slot p.target.range := by
  obtain ⟨first, rest, rfl⟩ := List.append_of_mem hp
  rw [timeline_sendReads, List.map_append, List.map_cons, List.reverse_append, List.reverse_cons,
    List.append_assoc, List.append_assoc]
  refine UnderWay.append .sent fun x hx => ?_
  obtain ⟨q, hq, rfl⟩ := List.mem_map.mp (List.mem_reverse.mp hx)
  rw [List.map_append, List.map_cons] at hslots
  have hne := (List.nodup_cons.mp (List.nodup_append.mp hslots).2.1).1
  rintro ⟨_, hslot⟩
  exact hne (hslot ▸ List.mem_map_of_mem hq)

lemma watch_mem_refreshTargets {s : Session} {r : WatchRead}
    (h : .watch r ∈ refreshTargets s) : r ∈ s.watches.reads := by
  simpa [refreshTargets] using h

lemma target_mem_pendingReads {targets : List ReadTarget} (h : p ∈ pendingReads targets) :
    p.target ∈ targets := by
  obtain ⟨⟨target, slot⟩, hq, rfl⟩ := List.mem_map.mp h
  exact (List.mem_zipIdx' hq).2 ▸ List.getElem_mem _

/-! ## Tasks that wait for no reads -/

lemma reads_suspend {w : Wait} (hw : w.reads = []) : (c.suspend t role w).reads t = [] := by
  rw [reads, suspend_tasks_self]
  exact hw

lemma reads_drop (c : Controller) (t : TaskId) : (c.drop t).reads t = [] := by
  rw [reads, drop_tasks_self]
  rfl

lemma reads_answer (result : Except Error Reply) : (c.answer t result).reads t = [] :=
  reads_drop c t

lemma reads_endLoop (c : Controller) (t : TaskId) : (c.endLoop t).reads t = [] :=
  endLoop_induction (P := fun d => d.reads t = []) (reads_drop c t) fun _ _ hd => hd

lemma reads_conclude (c : Controller) (t : TaskId) (role : Role) (result : Except Error Reply) :
    (c.conclude t role result).reads t = [] := by
  cases role with
  | request => exact reads_answer result
  | loop asked => exact reads_endLoop _ t

lemma reads_reset (result : Except Error Reply) : (c.reset t role result).reads t = [] :=
  reads_suspend rfl

lemma reads_leaveLoop (halt : Halt) : (c.leaveLoop t halt).reads t = [] := by
  cases halt <;> exact reads_endLoop _ t

lemma reads_beginTurn (asked : Option Halt) : (c.beginTurn t asked).reads t = [] := by
  cases asked with
  | none => exact reads_suspend rfl
  | some halt => exact reads_leaveLoop halt

lemma reads_load (goal : LoadGoal) : (c.load t goal).reads t = [] := by
  unfold load
  split
  · exact reads_conclude c t .request _
  · exact reads_suspend rfl

lemma reads_guarded {go : Controller → Controller} (hgo : (go (c.hold t)).reads t = []) :
    (c.guarded t go).reads t = [] := by
  unfold guarded
  split
  · exact reads_answer _
  · exact hgo

lemma reads_haltLoop {halt : Halt} {otherwise : Controller → Controller}
    (hgo : (otherwise { c with handle := none }).reads t = []) :
    (c.haltLoop t halt otherwise).reads t = [] := by
  unfold haltLoop
  split
  · split
    · exact reads_suspend rfl
    · exact hgo
  · exact hgo

lemma reads_afterRefresh (next : AfterRefresh) : (c.afterRefresh t role next).reads t = [] := by
  cases next with
  | load goal => cases goal <;> exact reads_conclude _ t .request _
  | step verdict =>
    cases role with
    | request => exact reads_conclude _ t .request _
    | loop asked =>
      cases verdict with
      | «continue» => exact reads_beginTurn asked
      | breakpointHit | finished => exact reads_conclude _ t (.loop asked) (.ok .done)

lemma reads_failLoad (err : Error) : (c.failLoad t err).reads t = [] :=
  reads_conclude _ t .request (.error err)

/-- Of all requests only the move of the memory window can wait for a read. -/
lemma reads_request {r : ViewRequest} (hr : ∀ first last, r ≠ .setWindow first last) :
    (c.request r).reads c.nextTask = [] := by
  unfold Controller.request
  cases r with
  | run =>
    refine reads_guarded ?_
    split
    · exact reads_conclude _ _ .request _
    · exact reads_conclude _ _ .request _
    · exact reads_load .run
    · exact reads_load .run
    · exact reads_conclude _ _ .request (.ok .done)
    · exact reads_conclude _ _ .request (.ok .done)
  | step =>
    refine reads_guarded ?_
    split
    · exact reads_conclude _ _ .request _
    · exact reads_conclude _ _ .request _
    · exact reads_load .step
    · exact reads_load .step
    · exact reads_suspend rfl
    · exact reads_suspend rfl
  | pause =>
    refine reads_haltLoop ?_
    split <;> exact reads_answer _
  | stop => exact reads_haltLoop (reads_guarded (reads_reset _))
  | toggleBreakpoint file row => exact reads_answer _
  | selectListing file =>
    dsimp only [selectListing]
    split <;> exact reads_answer _
  | setDelay ms =>
    dsimp only [setDelay]
    split <;> exact reads_answer _
  | setWindow first last => exact absurd rfl (hr first last)
  | check texts names =>
    dsimp only [check]
    split
    · exact reads_answer _
    · exact reads_suspend rfl
  | queryState => exact reads_answer _

lemma reads_resume {task : Task} (hd : c.resume? t task = some d) : d.reads t = [] := by
  rcases resume?_eq_some hd with ⟨asked, _, rfl⟩ | ⟨asked, _, rfl⟩ | ⟨asked, _, _, rfl⟩ |
    ⟨_, _, halt, _, _, rfl⟩
  · exact reads_beginTurn asked
  · unfold Controller.afterDelay
    split
    · exact reads_leaveLoop _
    · exact reads_suspend rfl
    · exact reads_suspend rfl
  · cases asked with
    | none => exact reads_suspend rfl
    | some halt => exact reads_leaveLoop halt
  · cases halt with
    | pause => exact reads_answer _
    | stop => exact reads_guarded (reads_reset _)

/-! ## Reads after an event -/

/-- A read of a task has been sent, where the variable that it refreshes is a declared one. -/
def Sends (d : Controller) (t : TaskId) (p : PendingRead) : Prop :=
  (∀ past, UnderWay (d.timeline past) t p.slot p.target.range) ∧
    ∀ r, p.target = .watch r → r ∈ d.session.watches.reads

/-- A refresh sends all that its task waits for. -/
lemma sends_refresh {next : AfterRefresh} (hp : p ∈ (c.refresh t role next).reads t) :
    (c.refresh t role next).Sends t p := by
  obtain ⟨_, _, htask, hp⟩ := mem_reads.mp hp
  rw [refresh_eq, suspend_tasks_self] at htask
  cases htask
  refine ⟨fun past => ?_, fun r hr => ?_⟩
  · rw [refresh_eq]
    refine underWay_sendReads ?_ hp
    rw [slots_pendingReads]
    exact List.nodup_range
  · rw [refresh_session]
    exact watch_mem_refreshTargets (hr ▸ target_mem_pendingReads hp)

lemma sends_setWindow {first last : UInt32} (hp : p ∈ (c.setWindow t first last).reads t) :
    (c.setWindow t first last).Sends t p := by
  unfold setWindow at hp ⊢
  split at hp
  · rw [reads_answer] at hp
    cases hp
  · next range _ =>
    dsimp only at hp ⊢
    split at hp
    · next hfree =>
      obtain ⟨_, _, htask, hp⟩ := mem_reads.mp hp
      rw [call, suspend_tasks_self] at htask
      cases htask
      obtain rfl := List.mem_singleton.mp hp
      rw [if_pos hfree]
      exact ⟨fun past => .sent, fun r hr => by cases hr⟩
    · rw [reads_answer] at hp
      cases hp

lemma sends_afterStep {result : Except Error RegisterSnapshot}
    (hp : p ∈ (c.afterStep t role result).reads t) : (c.afterStep t role result).Sends t p := by
  revert hp
  cases result with
  | error err =>
    intro hp
    rw [show (c.afterStep t role (.error err)).reads t = [] from reads_reset _] at hp
    cases hp
  | ok next =>
    rw [afterStep_ok]
    split
    · intro hp
      rw [reads_reset] at hp
      cases hp
    · exact sends_refresh

/-- The answer to one read of a refresh leaves the others to be waited for. -/
lemma mem_reads_afterRead {pending : List PendingRead} {next : AfterRefresh} {slot : Nat}
    {result : Except Error (List UInt8)} (hslot : slot ∈ pending.map (·.slot))
    (hp : p ∈ (c.afterRead t role pending next slot result).reads t) :
    p ∈ pending ∧ p.slot ≠ slot := by
  obtain ⟨q, hq⟩ := find?_slot_eq_some hslot
  revert hp
  unfold Controller.afterRead
  rw [hq]
  dsimp only
  split
  · intro hp
    rw [reads_afterRefresh] at hp
    cases hp
  · intro hp
    obtain ⟨_, _, htask, hp⟩ := mem_reads.mp hp
    rw [suspend_tasks_self] at htask
    cases htask
    obtain ⟨hold, hne⟩ := List.mem_filter.mp hp
    exact ⟨hold, by simpa using hne⟩

/-- A read that the task at work waits for after an event has just been sent, or it was waited for
before and is not the one that was answered. -/
lemma sends_or_waits (hd : c.perform? e = some d) (hp : p ∈ d.reads (e.worker c)) :
    d.Sends (e.worker c) p ∨
      p ∈ c.reads (e.worker c) ∧ ∀ result, e ≠ .read (e.worker c) p.slot result := by
  have hnone (h : d.reads (e.worker c) = []) : False := by
    rw [h] at hp
    cases hp
  cases e with
  | request r =>
    cases hd
    by_cases hr : ∃ first last, r = .setWindow first last
    · obtain ⟨first, last, rfl⟩ := hr
      exact .inl (sends_setWindow hp)
    · exact (hnone (reads_request fun first last h => hr ⟨first, last, h⟩)).elim
  | resumed t =>
    obtain ⟨_, _, hd⟩ := perform?_resumed hd
    exact (hnone (reads_resume hd)).elim
  | began t result =>
    rcases perform?_began hd with ⟨_, goal, _, rfl⟩ | ⟨role, _, _, rfl⟩
    · cases result with
      | error err => exact (hnone (reads_failLoad err)).elim
      | ok => exact (hnone (reads_suspend rfl)).elim
    · exact (hnone (reads_conclude _ t role _)).elim
  | loaded t result =>
    obtain ⟨_, goal, _, rfl⟩ := perform?_loaded hd
    cases result with
    | error err => exact (hnone (reads_failLoad err)).elim
    | ok outcome =>
      cases outcome with
      | loaded registers files => exact .inl (sends_refresh hp)
      | failed files => exact (hnone (reads_conclude _ t .request (.ok .done))).elim
  | stepped t result =>
    obtain ⟨role, _, rfl⟩ := perform?_stepped hd
    exact .inl (sends_afterStep hp)
  | read t slot result =>
    rcases perform?_read hd with ⟨role, pending, next, ht, hslot, rfl⟩ | ⟨_, range, _, _, rfl⟩
    · obtain ⟨hold, hne⟩ := mem_reads_afterRead hslot hp
      refine .inr ⟨mem_reads.mpr ⟨role, _, ht, hold⟩, fun _ heq => ?_⟩
      cases heq
      exact hne rfl
    · exact (hnone (reads_answer _)).elim
  | checked t result =>
    obtain ⟨_, _, rfl⟩ := perform?_checked hd
    cases result <;> exact (hnone (reads_answer _)).elim

/-- A read that any task waits for has just been sent by it, or it was waited for before and is not
the one that was answered. -/
lemma Sound.sends_or_waits (hs : Sound c) (hd : c.perform? e = some d) (hp : p ∈ d.reads t) :
    d.Sends t p ∨ p ∈ c.reads t ∧ ∀ result, e ≠ .read t p.slot result := by
  by_cases hworker : t = e.worker c
  · subst hworker
    exact Controller.sends_or_waits hd hp
  · obtain ⟨role, w, ht, hp⟩ := mem_reads.mp hp
    have hold : p ∈ c.reads t := by
      rcases (hs.isBy hd).others t hworker with hk | ⟨_, _, _, hnew⟩
      · obtain ⟨task, htask, hw⟩ := hk.wait ht
        exact mem_reads.mpr ⟨task.role, task.wait, htask, hw ▸ hp⟩
      · rw [hnew, Option.some.injEq] at ht
        cases ht
        cases hp
    refine .inr ⟨hold, fun result he => hworker ?_⟩
    rw [he]
    rfl

/-! ## What comes before an answer -/

/-- While a task waits for a read, all that comes of an event can come before the answer, apart from
the answer itself. -/
lemma Disciplined.passes (ho : Disciplined log c) (hs : Sound c)
    (hc : c = { found with history := [] }) (hd : c.perform? e = some d) (hp : p ∈ c.reads t)
    (hother : ∀ result, e ≠ .read t p.slot result) :
    ∀ x ∈ d.timeline [.event found e], x.Passes t p.slot := by
  obtain ⟨role, w, ht, hw⟩ := mem_reads.mp hp
  have hguard : c.guard = some t := ho.inSection t _ ht (Wait.isInSection_of_mem_reads hw)
  -- the task itself is set to work by answers to reads alone
  have hreads (hworker : e.worker c = t) : ∃ u slot result, e = .read u slot result :=
    Wait.accepts_of_mem_reads hw (accepts_of_perform hs hd (hworker.symm ▸ ht))
  have hheld {u : TaskId} {task : Task} (hu : c.tasks[u]? = some task)
      (hin : task.wait.isInSection = true) : u = t :=
    Option.some.inj ((ho.inSection u task hu hin).symm.trans hguard)
  have hevent : (LogEntry.event found e).Passes t p.slot := by
    cases e with
    | began u result =>
      have hu : u = t := by
        rcases perform?_began hd with ⟨_, _, hu, _⟩ | ⟨_, _, hu, _⟩ <;> exact hheld hu rfl
      obtain ⟨_, _, _, he⟩ := hreads hu
      cases he
    | loaded u result =>
      obtain ⟨_, _, hu, _⟩ := perform?_loaded hd
      obtain ⟨_, _, _, he⟩ := hreads (hheld hu rfl)
      cases he
    | stepped u result =>
      obtain ⟨_, hu, _⟩ := perform?_stepped hd
      obtain ⟨_, _, _, he⟩ := hreads (hheld hu rfl)
      cases he
    | read u slot result =>
      rintro ⟨rfl, rfl⟩
      exact hother result rfl
    | request | resumed | checked => trivial
  intro x hx
  rcases List.mem_append.mp hx with hx | hx
  · obtain ⟨o, ho, rfl⟩ := List.mem_map.mp hx
    cases o with
    | sent u slot r =>
      obtain ⟨rfl, hprompts⟩ := prompts_of_sent hs hd (by rw [hc]) ho
      have hnew : c.nextTask ≠ t := Nat.ne_of_gt (hs.fresh t _ ht)
      cases hprompts with
      | load _ hfree | step hfree | stop hfree | woken _ hfree | freed _ hfree =>
        rw [hfree] at hguard
        cases hguard
      | served hline hfree =>
        -- the task in line has not sent anything
        obtain rfl := Option.some.inj (hfree.symm.trans hguard)
        cases hline.symm.trans ht
        cases hw
      | window _ hfree =>
        rw [hfree] at hguard
        cases hguard
      | check => exact fun hsame => hnew hsame.1
      | begun | loaded | ended | stepped => exact hevent.elim
    | published | slept | ready | answered => trivial
  · rw [List.mem_singleton.mp hx]
    exact hevent

/-! ## What an event makes of the bytes -/

/-- The answer to a read becomes that of the window if it is one for the range of the window. -/
lemma memory_storeRead (s : Session) (target : ReadTarget) (result : Except Error (List UInt8)) :
    (storeRead s target result).memory = s.memory ∨ ∃ bytes, result = .ok bytes ∧
      (storeRead s target result).memory = ⟨target.range, bytes⟩ := by
  cases result with
  | error err => exact .inl rfl
  | ok bytes =>
    cases target with
    | watch r => exact .inl rfl
    | window range =>
      dsimp only [storeRead, Session.storeMemory]
      split
      · next hshows =>
        rw [Session.showsRange, Bool.and_eq_true, beq_iff_eq, beq_iff_eq] at hshows
        have hrange : s.memory.range = range := by
          cases hr : s.memory.range
          cases range
          rw [hr] at hshows
          obtain ⟨rfl, rfl⟩ := hshows
          rfl
        exact .inr ⟨bytes, rfl, by rw [hrange]; rfl⟩
      · exact .inl rfl

/-- The answer to a read becomes that of its variable. -/
lemma valueAt?_storeRead {s : Session} {target : ReadTarget} {result : Except Error (List UInt8)}
    {address : UInt32} {bytes : List UInt8}
    (h : (storeRead s target result).watches.valueAt? address = some bytes) :
    s.watches.valueAt? address = some bytes ∨
      ∃ r, target = .watch r ∧ r.address = address ∧ result = .ok bytes := by
  cases result with
  | error err => exact .inl h
  | ok values =>
    cases target with
    | window range =>
      refine .inl ?_
      dsimp only [storeRead, Session.storeMemory] at h
      split at h <;> exact h
    | watch r =>
      dsimp only [storeRead] at h
      rw [WatchRegistry.valueAt?_store] at h
      split at h
      · next haccepted => exact .inr ⟨r, rfl, haccepted.1, congrArg _ (Option.some.inj h)⟩
      · exact .inl h

lemma reads_storeRead (s : Session) (target : ReadTarget) (result : Except Error (List UInt8)) :
    (storeRead s target result).watches.reads = s.watches.reads := by
  cases result with
  | error err => rfl
  | ok bytes =>
    cases target with
    | window range =>
      dsimp only [storeRead, Session.storeMemory]
      split <;> rfl
    | watch r =>
      dsimp only [storeRead]
      rw [WatchRegistry.reads, WatchRegistry.entries_store, ← WatchRegistry.reads]

/-- What an event makes of the bytes that a session holds. -/
inductive Stores (c : Controller) : Event → Session → Prop where
  /-- The bytes stay, apart from those of a window that moves. -/
  | kept {e s} (he : ¬ (LogEntry.event c e).StartsOver) (hw : s.watches = c.session.watches)
      (hm : s.memory = c.session.memory ∨ s.memory.values = []) : Stores c e s
  | dropped {e s} (he : (LogEntry.event c e).StartsOver) (hw : s.watches.values = ∅)
      (hm : s.memory.values = []) : Stores c e s
  /-- A read is answered that a task waits for. -/
  | stored {t : TaskId} {p : PendingRead} {result} (hp : p ∈ c.reads t) :
      Stores c (.read t p.slot result) (storeRead c.session p.target result)

/-- The session after the answer to a read that a task waits for. -/
lemma stored_of_read {slot : Nat} {result : Except Error (List UInt8)}
    (hd : c.perform? (.read t slot result) = some d) :
    ∃ p ∈ c.reads t, p.slot = slot ∧ d.session = storeRead c.session p.target result := by
  rcases perform?_read hd with ⟨role, pending, next, htask, hslot, rfl⟩ |
    ⟨role, range, htask, rfl, rfl⟩
  · obtain ⟨p, hp⟩ := find?_slot_eq_some hslot
    refine ⟨p, mem_reads.mpr ⟨role, _, htask, List.mem_of_find?_eq_some hp⟩,
      by simpa using List.find?_some hp, ?_⟩
    show (c.afterRead t role pending next slot result).scene.session = _
    unfold Controller.afterRead
    rw [hp]
    dsimp only
    split
    · rw [scene_afterRefresh, Scene.session_enterAll]
      rfl
    · rfl
  · refine ⟨⟨0, .window range⟩, mem_reads.mpr ⟨role, _, htask, .head _⟩, rfl, ?_⟩
    show (c.afterWindow t range result).scene.session = _
    unfold Controller.afterWindow
    rw [scene_answer, scene_publishOf, scene_release]
    rfl

/-- What has happened before plays no part in what becomes of the bytes. -/
lemma Stores.recall {past : List Occurrence} {s : Session}
    (h : Stores { c with history := past } e s) : Stores c e s := by
  have hsame : (LogEntry.event { c with history := past } e).StartsOver ↔
      (LogEntry.event c e).StartsOver := by
    cases e with
    | loaded t result => rcases result with _ | _ | _ <;> rfl
    | _ => rfl
  cases h with
  | kept he hw hm => exact .kept (fun hstart => he (hsame.mpr hstart)) hw hm
  | dropped he hw hm => exact .dropped (hsame.mp he) hw hm
  | stored hp => exact .stored hp

/-- Nothing is held of what was loaded before. -/
lemma stores_of_startsOver (hd : c.perform? e = some d) (he : (LogEntry.event c e).StartsOver) :
    Stores c e d.session := by
  cases e with
  | began t result =>
    obtain ⟨role, outcome, ht⟩ := id he
    rcases perform?_began hd with ⟨_, _, ht', _⟩ | ⟨_, _, _, rfl⟩
    · cases ht.symm.trans ht'
    · rw [afterReset_session]
      exact .dropped he rfl rfl
  | loaded t result =>
    obtain ⟨_, goal, _, rfl⟩ := perform?_loaded hd
    cases result with
    | error err => exact he.elim
    | ok outcome =>
      cases outcome with
      | failed files => exact he.elim
      | loaded registers files =>
        rw [show (c.afterLoad t goal (.ok (.loaded registers files))).session =
          c.session.applyLoaded registers files from refresh_session ..]
        exact .dropped he rfl rfl
  | request | stepped | read | checked | resumed => exact he.elim

/-- Bytes come from the answers to reads alone. -/
lemma stores_of_perform (hd : c.perform? e = some d) : Stores c e d.session := by
  by_cases he : (LogEntry.event c e).StartsOver
  · exact stores_of_startsOver hd he
  by_cases hr : ∃ t slot result, e = .read t slot result
  · obtain ⟨t, slot, result, rfl⟩ := hr
    obtain ⟨p, hp, rfl, hsession⟩ := stored_of_read hd
    rw [hsession]
    exact .stored hp
  have hstep (next : RegisterSnapshot) : (c.scene.takeStep next).session.watches =
      c.session.watches ∧ (c.scene.takeStep next).session.memory = c.session.memory := by
    have hscene : c.scene.session = c.session := rfl
    rw [Scene.session_takeStep, hscene, (applyStep_eq c.session next).1]
    exact ⟨rfl, rfl⟩
  have ht := tidings_of_perform hd
  show Stores c e d.scene.session
  generalize d.scene = s at ht
  cases ht with
  | moved => exact .kept he rfl (.inr rfl)
  | moving => exact .kept he rfl (.inr rfl)
  | refused =>
    dsimp only [Scene.takeErrors]
    cases Option.map _ _ <;> exact .kept he rfl (.inl rfl)
  | loaded => exact absurd trivial he
  | @stepped _ next => exact .kept he (hstep next).1 (.inl (hstep next).2)
  | @ended _ _ next => exact .kept he (hstep next).1 (.inl (hstep next).2)
  | @reset _ role outcome _ htask => exact absurd ⟨role, outcome, htask⟩ he
  | read | refreshed | windowRead => exact absurd ⟨_, _, _, rfl⟩ hr
  | _ => exact .kept he rfl (.inl rfl)

/-! ## Runs -/

/-- All reads that are waited for are under way, and the bytes that are held are answers. -/
structure Fresh (log : List LogEntry) (c : Controller) : Prop where
  underWay : ∀ t, ∀ p ∈ c.reads t, UnderWay log t p.slot p.target.range
  declared : ∀ t, ∀ p ∈ c.reads t, ∀ r, p.target = .watch r → r ∈ c.session.watches.reads
  window : c.session.memory.values = [] ∨
    AnsweredSince log c.session.memory.range c.session.memory.values
  watches : ∀ address bytes, c.session.watches.valueAt? address = some bytes →
    ∃ r ∈ c.session.watches.reads, r.address = address ∧ AnsweredSince log r.range bytes

/-- What is declared stays until what is loaded is replaced or cleared. -/
lemma Stores.reads {s : Session} (h : Stores c e s) (he : ¬ (LogEntry.event c e).StartsOver) :
    s.watches.reads = c.session.watches.reads := by
  cases h with
  | kept _ hw => rw [hw]
  | dropped hstart => exact absurd hstart he
  | stored => exact reads_storeRead ..

section

variable {s : Session} {news : List Occurrence}

/-- The window holds nothing, or an answer for the range that it has. -/
lemma Stores.window (h : Stores c e s) (hf : Fresh log c) :
    s.memory.values = [] ∨
      AnsweredSince (news.map .occurrence ++ .event c e :: log) s.memory.range s.memory.values := by
  have hstays (hm : s.memory = c.session.memory) (he : ¬ (LogEntry.event c e).StartsOver) :
      s.memory.values = [] ∨
        AnsweredSince (news.map .occurrence ++ .event c e :: log) s.memory.range
          s.memory.values := by
    rw [hm]
    exact hf.window.imp_right fun hold => hold.event he
  cases h with
  | kept he _ hm =>
    rcases hm with hm | hm
    · exact hstays hm he
    · exact .inl hm
  | dropped _ _ hm => exact .inl hm
  | @stored t p result hp =>
    rcases memory_storeRead c.session p.target result with hm | ⟨bytes, rfl, hm⟩
    · exact hstays hm id
    · rw [hm]
      exact .inr (hf.underWay t p hp).answered

/-- What is held for an address is an answer for a variable that is declared there. -/
lemma Stores.watches (h : Stores c e s) (hf : Fresh log c) {address : UInt32} {bytes : List UInt8}
    (hvalue : s.watches.valueAt? address = some bytes) :
    ∃ r ∈ s.watches.reads, r.address = address ∧
      AnsweredSince (news.map .occurrence ++ .event c e :: log) r.range bytes := by
  have hstays (hold : c.session.watches.valueAt? address = some bytes)
      (he : ¬ (LogEntry.event c e).StartsOver) : ∃ r ∈ s.watches.reads, r.address = address ∧
        AnsweredSince (news.map .occurrence ++ .event c e :: log) r.range bytes := by
    obtain ⟨r, hr, haddress, hanswer⟩ := hf.watches address bytes hold
    exact ⟨r, h.reads he ▸ hr, haddress, hanswer.event he⟩
  cases h with
  | kept he hw =>
    rw [hw] at hvalue
    exact hstays hvalue he
  | dropped _ hw =>
    rw [WatchRegistry.valueAt?, hw] at hvalue
    simp at hvalue
  | @stored t p result hp =>
    rcases valueAt?_storeRead hvalue with hold | ⟨r, htarget, haddress, rfl⟩
    · exact hstays hold id
    · refine ⟨r, ?_, haddress, ?_⟩
      · rw [reads_storeRead]
        exact hf.declared t p hp r htarget
      · have hway := hf.underWay t p hp
        rw [htarget] at hway
        exact hway.answered

end

lemma Fresh.forget (h : Fresh log c) (past : List Occurrence) :
    Fresh log { c with history := past } :=
  ⟨h.underWay, h.declared, h.window, h.watches⟩

/-- Every event keeps the bytes fresh. -/
lemma Fresh.perform (hf : Fresh log c) (ho : Disciplined log c) (hs : Sound c)
    (hc : c = { found with history := [] }) (hd : c.perform? e = some d) :
    Fresh (d.timeline (.event found e :: log)) d := by
  have hlog : d.timeline (.event found e :: log) = d.timeline [.event found e] ++ log := by
    simp [timeline]
  have hstores : Stores found e d.session := by
    rw [hc] at hd
    exact (stores_of_perform hd).recall
  have hfound : Fresh log found := by
    rw [hc] at hf
    exact hf.forget found.history
  -- a read that was waited for before is still under way, and what is declared has stayed
  have hstays {t : TaskId} {p : PendingRead} (hp : p ∈ c.reads t)
      (hother : ∀ result, e ≠ .read t p.slot result) :
      (∀ x ∈ d.timeline [.event found e], x.Passes t p.slot) ∧
        d.session.watches.reads = c.session.watches.reads := by
    have hpass := ho.passes hs hc hd hp hother
    refine ⟨hpass, ?_⟩
    rw [hstores.reads (hpass _ (List.mem_append_right _ (.head _))).not_startsOver, hc]
  exact {
    underWay := fun t p hp => by
      rcases hs.sends_or_waits hd hp with hsent | ⟨hold, hother⟩
      · exact hsent.1 _
      · rw [hlog]
        exact (hf.underWay t p hold).append (hstays hold hother).1
    declared := fun t p hp r hr => by
      rcases hs.sends_or_waits hd hp with hsent | ⟨hold, hother⟩
      · exact hsent.2 r hr
      · rw [(hstays hold hother).2]
        exact hf.declared t p hold r hr
    window := hstores.window hfound
    watches := fun _ _ hvalue => hstores.watches hfound hvalue }

lemma fresh_of_run {settings : ControllerSettings} (h : Run (.ofSettings settings) log c) :
    Fresh log c := by
  suffices hall : Sound c ∧ Disciplined log c ∧ Fresh log c by
    exact hall.2.2
  refine h.invariant (P := fun log c => Sound c ∧ Disciplined log c ∧ Fresh log c) ?_
    ⟨sound_of_run .start, disciplined_of_run .start, ?_⟩ ?_
  · rintro log c past ⟨hs, ho, hf⟩
    exact ⟨hs.forget past, ho.forget past, hf.forget past⟩
  · have hnone (t : TaskId) : (ofSettings settings).reads t = [] := by simp [reads, ofSettings]
    exact {
      underWay := fun t p hp => by simp [hnone] at hp
      declared := fun t p hp => by simp [hnone] at hp
      window := .inl rfl
      watches := fun address bytes hvalue => by
        simp [WatchRegistry.valueAt?, ofSettings, Session.ofRoot] at hvalue }
  · rintro log c e d found hc ⟨hs, ho, hf⟩ hd
    exact ⟨hs.perform hd, ho.perform hc hd, hf.perform ho hs hc hd⟩

/-- An answer to a read is kept only for what was loaded when it was sent: since then nothing has
been begun, loaded or stepped, and the bytes that the memory window or a variable holds are such an
answer, for the range of the window or for a variable that is declared at the address. -/
theorem memory_is_fresh {settings : ControllerSettings} (h : Run (.ofSettings settings) log c) :
    (∀ t slot result d news, c.happen? (.read t slot result) = some (d, news) →
      ∃ target, d.session = storeRead c.session target result ∧
        UnderWay log t slot target.range ∧
        ∀ r, target = .watch r → r ∈ c.session.watches.reads) ∧
    (c.session.memory.values = [] ∨
      AnsweredSince log c.session.memory.range c.session.memory.values) ∧
    ∀ address bytes, c.session.watches.valueAt? address = some bytes →
      ∃ entry ∈ c.session.watches.entries, entry.declared.address = address ∧
        ∃ range, entry.declared.range? = some range ∧ AnsweredSince log range bytes := by
  have hfresh := fresh_of_run h
  refine ⟨fun t slot result d news hd => ?_, hfresh.window, fun address bytes hvalue => ?_⟩
  · obtain ⟨d', hd', rfl, rfl⟩ := happen?_eq_some hd
    obtain ⟨p, hp, rfl, hsession⟩ := stored_of_read hd'
    exact ⟨p.target, hsession, hfresh.underWay t p hp, hfresh.declared t p hp⟩
  · obtain ⟨r, hr, rfl, hanswer⟩ := hfresh.watches address bytes hvalue
    obtain ⟨entry, hentry, haddress, hrange⟩ := WatchRegistry.mem_reads.mp hr
    exact ⟨entry, hentry, haddress, r.range, hrange, hanswer⟩

/-- A file that declares a variable of one byte, for a short run that is replayed. -/
def oneVariable : LoadedFile where
  name := "main.asm"
  watches := [{ name := "FLAG", address := 3, declaredSize := some 1 }]

/-- The window moves here while a refresh reads it, so the answer is turned away. The byte of the
variable was answered before and stays. -/
theorem memory_is_fresh_in_a_moved_window : ∃ log c d news,
    replay (.ofSettings oneSource) [.request .step, .began 0 (.ok ()),
      .loaded 0 (.ok (.loaded {} [oneVariable])), .read 0 1 (.ok [5]),
      .request (.setWindow 16 31)] = some (log, c) ∧
    c.happen? (.read 0 0 (.ok [7])) = some (d, news) ∧ d.session.memory.values = [] ∧
    (∃ target, d.session = storeRead c.session target (.ok [7]) ∧
      UnderWay log 0 0 target.range ∧ ∀ r, target = .watch r → r ∈ c.session.watches.reads) ∧
    c.session.watches.valueAt? 3 = some [5] ∧
    ∃ entry ∈ c.session.watches.entries, entry.declared.address = 3 ∧
      ∃ range, entry.declared.range? = some range ∧ AnsweredSince log range [5] := by
  obtain ⟨⟨log, c⟩, hlog⟩ := Option.isSome_iff_exists.mp (show (replay (.ofSettings oneSource)
    [.request .step, .began 0 (.ok ()), .loaded 0 (.ok (.loaded {} [oneVariable])),
      .read 0 1 (.ok [5]), .request (.setWindow 16 31)]).isSome = true by rfl)
  have hc : c = ((replay (.ofSettings oneSource) [.request .step, .began 0 (.ok ()),
      .loaded 0 (.ok (.loaded {} [oneVariable])), .read 0 1 (.ok [5]),
      .request (.setWindow 16 31)]).get (by rfl)).2 := by
    simp only [hlog, Option.get_some]
  have hvalue : c.session.watches.valueAt? 3 = some [5] := by
    rw [hc]
    rfl
  have hread : (c.happen? (.read 0 0 (.ok [7]))).map (·.1.session.memory.values) = some [] := by
    rw [hc]
    rfl
  obtain ⟨⟨d, news⟩, hd, hempty⟩ := Option.map_eq_some_iff.mp hread
  obtain ⟨hkept, _, hwatches⟩ := memory_is_fresh (.of_replay hlog)
  exact ⟨log, c, d, news, hlog, hd, hempty, hkept 0 0 (.ok [7]) d news hd, hvalue,
    hwatches 3 [5] hvalue⟩

end Controller
end SicDebugger
