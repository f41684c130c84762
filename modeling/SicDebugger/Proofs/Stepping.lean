import SicDebugger.Proofs.Discipline
import SicDebugger.Proofs.Script

/-!
# Continuous runs and single steps

A continuous run takes the steps that single requests for steps would take, as long as nothing else
is asked. A loop in a turn and a request of a single step are abreast while they wait for the same
answer, with the same session, the same requests sent and the same messages published apart from
states. Every answer keeps them abreast or ends both, and only then do they differ: a request leaves
its state behind, a loop goes to sleep or ends.
-/

namespace SicDebugger

namespace Occurrence

/-- The request to the simulator that an occurrence is. -/
def request? : Occurrence → Option SimulatorRequest
  | sent _ _ r => some r
  | _ => none

/-- The message that all views are told, unless it is an execution state. -/
def announcement? : Occurrence → Option ViewMessage
  | published (.state _) => none
  | published m => some m
  | _ => none

end Occurrence

namespace Controller

/-! ## Accounts -/

/-- The requests that the simulator has been sent, the latest first. -/
def requests (c : Controller) : List SimulatorRequest := c.history.filterMap Occurrence.request?

/-- The messages that all views have been told, the latest first, without execution states. -/
def announcements (c : Controller) : List ViewMessage :=
  c.history.filterMap Occurrence.announcement?

/-- The session and what it has come to outside, whoever was at work. -/
structure Account where
  mode : MachineMode
  session : Session
  requests : List SimulatorRequest
  announcements : List ViewMessage

/-- The account with one more request. -/
def Account.ask (a : Account) (r : SimulatorRequest) : Account :=
  { a with requests := r :: a.requests }

/-- The account with one more message. -/
def Account.tell (a : Account) (m : ViewMessage) : Account :=
  { a with announcements := (Occurrence.announcement? (.published m)).toList ++ a.announcements }

/-- The account of a controller. -/
def account (c : Controller) : Account where
  mode := c.settings.mode
  session := c.session
  requests := c.requests
  announcements := c.announcements

section

variable (c : Controller) (t : TaskId) (role : Role)

@[simp] lemma account_publish (m : ViewMessage) : (c.publish m).account = c.account.tell m := by
  cases m <;> rfl

@[simp] lemma account_publishOf (build : Session → ViewMessage) :
    (c.publishOf build).account = c.account.tell (build c.session) :=
  account_publish c _

@[simp] lemma account_setState (s : ExecutionState) : (c.setState s).account = c.account := rfl

@[simp] lemma account_suspend (w : Wait) : (c.suspend t role w).account = c.account := rfl

@[simp] lemma account_call (r : SimulatorRequest) (w : Wait) :
    (c.call t role r w).account = c.account.ask r := rfl

@[simp] lemma account_release : c.release.account = c.account := by
  unfold release
  split <;> rfl

@[simp] lemma account_endLoop : (c.endLoop t).account = c.account :=
  endLoop_induction (P := fun d => d.account = c.account) rfl fun _ _ hd => hd

@[simp] lemma account_conclude (result : Except Error Reply) :
    (c.conclude t role result).account = c.account := by
  cases role with
  | request => exact account_release c
  | loop asked => exact (account_endLoop c.release t).trans (account_release c)

end

variable {c d c' d' : Controller} {t l : TaskId}

lemma session_eq_of_account (h : c.account = d.account) : c.session = d.session :=
  congrArg Account.session h

lemma mode_eq_of_account (h : c.account = d.account) : c.settings.mode = d.settings.mode :=
  congrArg Account.mode h

/-- What is told of the session is the same for sessions that are the same. -/
lemma account_publishOf_congr (build : Session → ViewMessage) (h : c.account = d.account) :
    (c.publishOf build).account = (d.publishOf build).account := by
  rw [account_publishOf, account_publishOf, h, session_eq_of_account h]

lemma account_withSession_congr (f : Session → Session) (h : c.account = d.account) :
    (c.withSession f).account = (d.withSession f).account :=
  congrArg (fun a : Account => { a with session := f a.session }) h

/-- Accounts that are the same stay so when they are added to the same account of the past. -/
lemma account_recall (h : c.account = d.account) (h' : c'.account = d'.account) :
    ({ c' with history := c'.history ++ c.history } : Controller).account =
      ({ d' with history := d'.history ++ d.history } : Controller).account := by
  simp only [account, requests, announcements, List.filterMap_append, Account.mk.injEq] at h h' ⊢
  obtain ⟨-, -, hr, ha⟩ := h
  obtain ⟨hm', hs', hr', ha'⟩ := h'
  exact ⟨hm', hs', by rw [hr, hr'], by rw [ha, ha']⟩

lemma account_sendReads (pending : List PendingRead) (h : c.account = d.account) :
    (c.sendReads t pending).account = (d.sendReads l pending).account := by
  induction pending generalizing c d with
  | nil => exact h
  | cons p rest ih =>
    apply ih
    exact congrArg (Account.ask · (readRequest p.target.range)) h

lemma account_takeStep (next : RegisterSnapshot) (h : c.account = d.account) :
    (c.takeStep next).account = (d.takeStep next).account := by
  have htold := account_publishOf_congr ViewMessage.ofRegisters
    (account_withSession_congr (fun s => (s.applyStep next).1) h)
  rw [takeStep, takeStep, ← session_eq_of_account h]
  cases (c.session.applyStep next).2.focused with
  | none => exact htold
  | some file =>
    rw [Option.elim_some, Option.elim_some, account_publish, account_publish]
    exact congrArg (Account.tell · (.activeListing file)) htold

/-! ## Abreast -/

/-- A controller that takes single steps and one whose loop takes them have come to the same, and no
other loop is in line for the guard. -/
structure Matched (l : TaskId) (c d : Controller) : Prop where
  account : c.account = d.account
  line : c.line = []
  line' : d.line = []
  handle : d.handle = some l

/-- A request of a single step and a loop in a turn wait for the same. -/
structure Abreast (t l : TaskId) (w : Wait) (c d : Controller) : Prop extends Matched l c d where
  request : c.tasks[t]? = some ⟨.request, w⟩
  loop : d.tasks[l]? = some ⟨.loop none, w⟩

/-- A single step has come to its end, and the loop sleeps before its next turn. -/
structure Asleep (l : TaskId) (c d : Controller) : Prop extends Matched l c d where
  free : c.guard = none
  free' : d.guard = none
  loop : d.tasks[l]? = some ⟨.loop none, .asleep⟩
  state : c.state = .ready ∨ c.state = .paused

/-- A single step has come to its end, and the loop has ended by itself. -/
structure Ended (l : TaskId) (c d : Controller) : Prop extends Matched l c d where
  gone : d.tasks[l]? = none
  state : d.state = c.state
  final : c.state = .paused ∨ c.state = .idle

/-- A single step has come to its end, and so has a turn of the loop. -/
def Settled (l : TaskId) (c d : Controller) : Prop := Asleep l c d ∨ Ended l c d

lemma Matched.forget (h : Matched l c d) :
    Matched l { c with history := [] } { d with history := [] } where
  account := by
    simp only [Controller.account, Account.mk.injEq]
    exact ⟨mode_eq_of_account h.account, session_eq_of_account h.account, rfl, rfl⟩
  line := h.line
  line' := h.line'
  handle := h.handle

lemma Matched.recall (h : Matched l c d) (h' : Matched l c' d') :
    Matched l { c' with history := c'.history ++ c.history }
      { d' with history := d'.history ++ d.history } where
  account := account_recall h.account h'.account
  line := h'.line
  line' := h'.line'
  handle := h'.handle

lemma Abreast.recall {w : Wait} (h : Matched l c d) (h' : Abreast t l w c' d') :
    Abreast t l w { c' with history := c'.history ++ c.history }
      { d' with history := d'.history ++ d.history } :=
  ⟨h.recall h'.toMatched, h'.request, h'.loop⟩

lemma Asleep.recall (h : Matched l c d) (h' : Asleep l c' d') :
    Asleep l { c' with history := c'.history ++ c.history }
      { d' with history := d'.history ++ d.history } :=
  ⟨h.recall h'.toMatched, h'.free, h'.free', h'.loop, h'.state⟩

lemma Ended.recall (h : Matched l c d) (h' : Ended l c' d') :
    Ended l { c' with history := c'.history ++ c.history }
      { d' with history := d'.history ++ d.history } :=
  ⟨h.recall h'.toMatched, h'.gone, h'.state, h'.final⟩

/-! ## What an answer does to both -/

/-- Both have come to their end where their states are the same. -/
lemma Matched.conclude (result result' : Except Error Reply) (h : Matched l c d)
    (hs : d.state = c.state) (hf : c.state = .paused ∨ c.state = .idle) :
    Ended l (c.conclude t .request result) (d.conclude l (.loop none) result') where
  account := by simpa using h.account
  line := by
    rw [Controller.conclude, release_of_line h.line]
    exact h.line
  line' := by
    rw [Controller.conclude, release_of_line h.line', endLoop_eq]
    exact h.line'
  handle := by
    rw [Controller.conclude, release_of_line h.line', endLoop_eq]
    exact h.handle
  gone := by
    rw [Controller.conclude, endLoop_eq]
    exact drop_tasks_self ..
  state := by rw [conclude_state, conclude_state, hs]
  final := by rwa [conclude_state]

/-- A request pauses where a loop goes to sleep. -/
lemma Matched.sleep (result : Except Error Reply) (h : Matched l c d) :
    Asleep l ((c.setState .paused).conclude t .request result) (d.release.beginTurn l none) := by
  have hrequest : (c.setState .paused).release = { c.setState .paused with guard := none } :=
    release_of_line h.line
  rw [Controller.conclude, hrequest, release_of_line h.line']
  exact ⟨⟨h.account, h.line, h.line', h.handle⟩, rfl, rfl, suspend_tasks_self ..,
    .inr rfl⟩

/-- Both begin a reset. -/
lemma Matched.reset (result : Except Error Reply) (h : Matched l c d) :
    Abreast t l (.reset result) (c.reset t .request result) (d.reset l (.loop none) result) where
  account := by simp [Controller.reset, h.account, mode_eq_of_account h.account]
  line := h.line
  line' := h.line'
  handle := h.handle
  request := suspend_tasks_self ..
  loop := suspend_tasks_self ..

/-- Both end idle after a reset, whatever has become of its begin. -/
lemma Matched.afterReset (result : Except Error Reply) (h : Matched l c d) :
    Ended l (c.afterReset t .request result) (d.afterReset l (.loop none) result) := by
  refine Matched.conclude result result ⟨?_, h.line, h.line', h.handle⟩ rfl (.inr rfl)
  rw [account_setState, account_setState]
  apply account_publishOf_congr
  apply account_publishOf_congr
  apply account_publishOf_congr
  apply account_publishOf_congr
  exact account_withSession_congr Session.clear h.account

/-- Both send the reads of a refresh. -/
lemma Matched.refresh (next : AfterRefresh) (h : Matched l c d) :
    Abreast t l (.refresh (pendingReads (refreshTargets c.session)) next)
      (c.refresh t .request next) (d.refresh l (.loop none) next) where
  account := by
    rw [refresh_eq, refresh_eq, account_suspend, account_suspend, session_eq_of_account h.account]
    exact account_sendReads _ h.account
  line := by
    rw [refresh_eq, sendReads_eq]
    exact h.line
  line' := by
    rw [refresh_eq, sendReads_eq]
    exact h.line'
  handle := by
    rw [refresh_eq, sendReads_eq]
    exact h.handle
  request := suspend_tasks_self ..
  loop := by
    rw [session_eq_of_account h.account]
    exact suspend_tasks_self ..

lemma Matched.takeStep (next : RegisterSnapshot) (h : Matched l c d) :
    Matched l (c.takeStep next) (d.takeStep next) := by
  refine ⟨account_takeStep next h.account, ?_, ?_, ?_⟩
  · rw [takeStep_eq]
    exact h.line
  · rw [takeStep_eq]
    exact h.line'
  · rw [takeStep_eq]
    exact h.handle

/-- Both take the answer to their step in the same way. -/
lemma Matched.afterStep (answer : Except Error RegisterSnapshot) (h : Matched l c d) :
    (∃ result, Abreast t l (.reset result) (c.afterStep t .request answer)
      (d.afterStep l (.loop none) answer)) ∨
    ∃ targets verdict, targets ≠ [] ∧
      Abreast t l (.refresh (pendingReads targets) (.step verdict))
        (c.afterStep t .request answer) (d.afterStep l (.loop none) answer) := by
  cases answer with
  | error err =>
    have htold : Matched l (c.publish (.notice err.message)) (d.publish (.notice err.message)) :=
      ⟨by simp [h.account], h.line, h.line', h.handle⟩
    exact .inl ⟨_, htold.reset (.error err)⟩
  | ok next =>
    have htaken := h.takeStep next
    rw [afterStep_ok, afterStep_ok, session_eq_of_account h.account]
    split
    · exact .inl ⟨_, htaken.reset (.ok .done)⟩
    · exact .inr ⟨_, _, List.cons_ne_nil _ _, htaken.refresh _⟩

/-- Once the views have been refreshed a request pauses, and a loop sleeps or pauses as well. -/
lemma Matched.afterRefresh (verdict : StepVerdict) (h : Matched l c d) :
    Settled l (c.afterRefresh t .request (.step verdict))
      (d.afterRefresh l (.loop none) (.step verdict)) := by
  have htold : Matched l ((c.publishOf ViewMessage.ofMemory).publishOf ViewMessage.ofWatches)
      ((d.publishOf ViewMessage.ofMemory).publishOf ViewMessage.ofWatches) := by
    refine ⟨?_, h.line, h.line', h.handle⟩
    apply account_publishOf_congr
    apply account_publishOf_congr
    exact h.account
  have hends : Ended l (c.afterRefresh t .request (.step verdict))
      ((((d.publishOf ViewMessage.ofMemory).publishOf ViewMessage.ofWatches).setState
        .paused).conclude l (.loop none) (.ok .done)) :=
    Matched.conclude _ _ ⟨htold.account, h.line, h.line', h.handle⟩ rfl (.inl rfl)
  -- a request pauses whatever the verdict is, and a loop only goes on for one of them
  cases verdict with
  | «continue» => exact .inl (htold.sleep _)
  | finished => exact .inr hends
  | breakpointHit file row => exact .inr hends

/-- Both take the answer to a read, and go on once it was the last one. -/
lemma Abreast.afterRead {pending : List PendingRead} {verdict : StepVerdict} {slot : Nat}
    (result : Except Error (List UInt8))
    (h : Abreast t l (.refresh pending (.step verdict)) c d) (hs : slot ∈ pending.map (·.slot)) :
    (pending.filter (·.slot != slot) = [] ∧
      Settled l (c.afterRead t .request pending (.step verdict) slot result)
        (d.afterRead l (.loop none) pending (.step verdict) slot result)) ∨
    (pending.filter (·.slot != slot) ≠ [] ∧
      Abreast t l (.refresh (pending.filter (·.slot != slot)) (.step verdict))
        (c.afterRead t .request pending (.step verdict) slot result)
        (d.afterRead l (.loop none) pending (.step verdict) slot result)) := by
  obtain ⟨p, hp⟩ := find?_slot_eq_some hs
  have hstored : Matched l (c.withSession (storeRead · p.target result))
      (d.withSession (storeRead · p.target result)) :=
    ⟨account_withSession_congr _ h.account, h.line, h.line', h.handle⟩
  unfold Controller.afterRead
  rw [hp]
  dsimp only
  split
  · next hlast => exact .inl ⟨List.isEmpty_iff.mp hlast, hstored.afterRefresh verdict⟩
  · next hmore =>
    refine .inr ⟨fun he => hmore (List.isEmpty_iff.mpr he), ?_⟩
    exact ⟨⟨hstored.account, h.line, h.line', h.handle⟩, suspend_tasks_self ..,
      suspend_tasks_self ..⟩

/-! ## Steps and turns -/

/-- Both can be given the answer to their step. -/
lemma Abreast.stepped (answer : Except Error RegisterSnapshot) (h : Abreast t l .step c d) :
    ∃ c' d', c.advance? (.stepped t answer) = some c' ∧ d.advance? (.stepped l answer) = some d' ∧
      ((∃ result, Abreast t l (.reset result) c' d') ∨ ∃ targets verdict, targets ≠ [] ∧
        Abreast t l (.refresh (pendingReads targets) (.step verdict)) c' d') := by
  have hc : { c with history := [] }.perform? (.stepped t answer) =
      some ({ c with history := [] }.afterStep t .request answer) := by
    simp only [perform?, h.request]
  have hd : { d with history := [] }.perform? (.stepped l answer) =
      some ({ d with history := [] }.afterStep l (.loop none) answer) := by
    simp only [perform?, h.loop]
  refine ⟨_, _, advance?_eq_some hc, advance?_eq_some hd, ?_⟩
  rcases h.toMatched.forget.afterStep (t := t) answer with ⟨result, hreset⟩ |
    ⟨targets, verdict, hne, hrefresh⟩
  · exact .inl ⟨result, hreset.recall h.toMatched⟩
  · exact .inr ⟨targets, verdict, hne, hrefresh.recall h.toMatched⟩

/-- Both can be given the answer to the begin of their reset, and end with it. -/
lemma Abreast.began {result : Except Error Reply} (answer : Except Error Unit)
    (h : Abreast t l (.reset result) c d) :
    ∃ c' d', c.advance? (.began t answer) = some c' ∧ d.advance? (.began l answer) = some d' ∧
      Settled l c' d' := by
  have hc : { c with history := [] }.perform? (.began t answer) =
      some ({ c with history := [] }.afterReset t .request result) := by
    simp only [perform?, h.request]
  have hd : { d with history := [] }.perform? (.began l answer) =
      some ({ d with history := [] }.afterReset l (.loop none) result) := by
    simp only [perform?, h.loop]
  refine ⟨_, _, advance?_eq_some hc, advance?_eq_some hd, .inr ?_⟩
  exact (h.toMatched.forget.afterReset result).recall h.toMatched

/-- Both can be given the answer to a read that is pending. -/
lemma Abreast.read {pending : List PendingRead} {verdict : StepVerdict} {slot : Nat}
    (answer : Except Error (List UInt8))
    (h : Abreast t l (.refresh pending (.step verdict)) c d) (hs : slot ∈ pending.map (·.slot)) :
    ∃ c' d', c.advance? (.read t slot answer) = some c' ∧
      d.advance? (.read l slot answer) = some d' ∧
      ((pending.filter (·.slot != slot) = [] ∧ Settled l c' d') ∨
        (pending.filter (·.slot != slot) ≠ [] ∧
          Abreast t l (.refresh (pending.filter (·.slot != slot)) (.step verdict)) c' d')) := by
  have hany : pending.any (·.slot == slot) = true := by simpa using hs
  have hc : { c with history := [] }.perform? (.read t slot answer) =
      some ({ c with history := [] }.afterRead t .request pending (.step verdict) slot answer) := by
    simp only [perform?, h.request, hany, if_true]
  have hd : { d with history := [] }.perform? (.read l slot answer) =
      some ({ d with history := [] }.afterRead l (.loop none) pending (.step verdict) slot
        answer) := by
    simp only [perform?, h.loop, hany, if_true]
  have hforget : Abreast t l (.refresh pending (.step verdict)) { c with history := [] }
      { d with history := [] } := ⟨h.toMatched.forget, h.request, h.loop⟩
  refine ⟨_, _, advance?_eq_some hc, advance?_eq_some hd, ?_⟩
  rcases hforget.afterRead answer hs with ⟨hlast, hasleep | hended⟩ | ⟨hmore, hafter⟩
  · exact .inl ⟨hlast, .inl (hasleep.recall h.toMatched)⟩
  · exact .inl ⟨hlast, .inr (hended.recall h.toMatched)⟩
  · exact .inr ⟨hmore, hafter.recall h.toMatched⟩

lemma answerReads?_cons (slot : Nat) (answer : Except Error (List UInt8))
    (rest : List (Nat × Except Error (List UInt8))) :
    c.answerReads? t ((slot, answer) :: rest) =
      (c.advance? (.read t slot answer)).bind (·.answerReads? t rest) := rfl

/-- Both can be given the answers to all reads of a refresh, in any order. -/
lemma Abreast.answerReads {pending : List PendingRead} {verdict : StepVerdict}
    (reads : List (Nat × Except Error (List UInt8)))
    (h : Abreast t l (.refresh pending (.step verdict)) c d) (hne : pending ≠ [])
    (hn : (pending.map (·.slot)).Nodup)
    (hp : (reads.map Prod.fst).Perm (pending.map (·.slot))) :
    ∃ c' d', c.answerReads? t reads = some c' ∧ d.answerReads? l reads = some d' ∧
      Settled l c' d' := by
  induction reads generalizing pending c d with
  | nil => exact absurd (List.map_eq_nil_iff.mp hp.symm.eq_nil) hne
  | cons first rest ih =>
    obtain ⟨slot, answer⟩ := first
    have hslot : slot ∈ pending.map (·.slot) := hp.subset (List.mem_cons_self ..)
    -- the answers that are left are those to the reads that are left
    have hrest : (rest.map Prod.fst).Perm ((pending.filter (·.slot != slot)).map (·.slot)) :=
      (hp.trans (slots_filter_perm hn hslot).symm).cons_inv
    obtain ⟨c', d', hc, hd, hafter⟩ := h.read answer hslot
    rw [answerReads?_cons, answerReads?_cons, hc, hd, Option.bind_some, Option.bind_some]
    rcases hafter with ⟨hlast, hsettled⟩ | ⟨hmore, habreast⟩
    · -- the script has no answers beyond the last read
      rw [hlast] at hrest
      obtain rfl : rest = [] := List.map_eq_nil_iff.mp hrest.eq_nil
      exact ⟨c', d', rfl, rfl, hsettled⟩
    · exact ih habreast hmore ((List.filter_sublist.map _).nodup hn) hrest

/-- Both can be given everything that they ask in a step. -/
lemma Abreast.answerStep (a : StepAnswers) (h : Abreast t l .step c d) :
    ∃ c' d', c.answerStep? t a = some c' ∧ d.answerStep? l a = some d' ∧ Settled l c' d' := by
  obtain ⟨c', d', hc, hd, ⟨result, hreset⟩ | ⟨targets, verdict, hne, hrefresh⟩⟩ := h.stepped a.step
  · have hbegan := hreset.began a.began
    simpa only [answerStep?, hc, hd, hreset.request, hreset.loop, Option.bind_eq_bind,
      Option.bind_some] using hbegan
  · have hslots := slots_pendingReads targets
    have hlength : (pendingReads targets).length = targets.length := by
      simpa using congrArg List.length hslots
    have hreads := hrefresh.answerReads (a.reads (pendingReads targets).length)
      (by rwa [← List.length_pos_iff, hlength, List.length_pos_iff])
      (by rw [hslots]; exact List.nodup_range) (by rw [hslots, hlength]; exact a.reads_slots _)
    simpa only [answerStep?, hc, hd, hrefresh.request, hrefresh.loop, Option.bind_eq_bind,
      Option.bind_some] using hreads

/-- A request of a single step sends a step. -/
lemma advance?_request_step (hs : c.state = .ready ∨ c.state = .paused) (hg : c.guard = none) :
    c.advance? (.request .step) = some (((({ c with nextTask := c.nextTask + 1 } : Controller).hold
      c.nextTask).setState .running).sendStep c.nextTask .request) := by
  have hstep : { c with history := [] }.perform? (.request .step) = some
      (((({ c with nextTask := c.nextTask + 1, history := [] } : Controller).hold
        c.nextTask).setState .running).sendStep c.nextTask .request) := by
    rcases hs with hs | hs <;> simp [perform?, request, step, guarded, hold, hs, hg]
  exact advance?_eq_some hstep

/-- A single step and the next turn of the loop come to the same. -/
lemma Asleep.turn (a : StepAnswers) (h : Asleep l c d) :
    ∃ c' d', c.singleStep? a = some c' ∧ d.loopTurn? l a = some d' ∧ Settled l c' d' := by
  have hwoken : { d with history := [] }.perform? (.resumed l) =
      some (({ d with history := [] }.hold l).sendStep l (.loop none)) := by
    simp [perform?, h.loop, resume?, afterDelay, h.free']
  have hsent : Abreast c.nextTask l .step
      (((({ c with nextTask := c.nextTask + 1 } : Controller).hold c.nextTask).setState
        .running).sendStep c.nextTask .request) ((d.hold l).sendStep l (.loop none)) :=
    ⟨⟨congrArg (Account.ask · .step) h.account, h.line, h.line', h.handle⟩,
      suspend_tasks_self .., suspend_tasks_self ..⟩
  have hanswered := hsent.answerStep a
  have hstep := advance?_request_step h.state h.free
  have hresumed : d.advance? (.resumed l) = some ((d.hold l).sendStep l (.loop none)) :=
    advance?_eq_some hwoken
  simpa only [singleStep?, loopTurn?, hstep, hresumed, Option.bind_eq_bind, Option.bind_some] using
    hanswered

/-! ## Runs -/

/-- The loop that is asleep is on. -/
lemma Asleep.loop?_eq (h : Asleep l c d) : d.loop? = some l := by
  rw [loop?, h.handle, Option.filter_some, if_pos]
  rw [Std.ExtTreeMap.contains_eq_isSome_getElem?, h.loop]
  rfl

/-- No loop is on once it has ended. -/
lemma Ended.loop?_eq (h : Ended l c d) : d.loop? = none := by
  rw [loop?, h.handle, Option.filter_some, if_neg]
  rw [Std.ExtTreeMap.contains_eq_isSome_getElem?, h.gone]
  exact Bool.false_ne_true

/-- The loop takes turns until it ends or the script does, and so many single steps come to the
same. -/
lemma Settled.turns (script : List StepAnswers) (h : Settled l c d) :
    ∃ k c' d', d.loopTurns? script = some (k, d') ∧ c.singleSteps? (script.take k) = some c' ∧
      (Asleep l c' d' ∧ k = script.length ∨ Ended l c' d') := by
  induction script generalizing c d with
  | nil =>
    refine ⟨0, c, d, rfl, rfl, ?_⟩
    rcases h with hasleep | hended
    · exact .inl ⟨hasleep, rfl⟩
    · exact .inr hended
  | cons a rest ih =>
    rcases h with hasleep | hended
    · obtain ⟨c₁, d₁, hc, hd, hsettled⟩ := hasleep.turn a
      obtain ⟨k, c', d', hturns, hsteps, hend⟩ := ih hsettled
      refine ⟨k + 1, c', d', ?_, ?_, ?_⟩
      · rw [loopTurns?, hasleep.loop?_eq]
        simp only [hd, hturns, Option.bind_eq_bind, Option.bind_some, Option.pure_def]
      · rw [List.take_succ_cons, singleSteps?, List.foldlM_cons, hc]
        exact hsteps
      · rcases hend with ⟨hasleep', rfl⟩ | hended
        · exact .inl ⟨hasleep', rfl⟩
        · exact .inr hended
    · -- a loop that has ended leaves the rest of the script alone
      refine ⟨0, c, d, ?_, rfl, .inr hended⟩
      rw [loopTurns?, hended.loop?_eq]

/-- A program is loaded or has been stepped, and no request that needs the guard is under way. -/
structure AtRest (c : Controller) : Prop where
  state : c.state = .ready ∨ c.state = .paused
  free : c.guard = none
  line : c.line = []

/-- A request of a run makes a loop and gives the guard back. -/
lemma AtRest.request_run (h : c.AtRest) :
    c.request .run = ({ ((({ c with nextTask := c.nextTask + 1 } : Controller).hold
      c.nextTask).setState .running).withLoop with guard := none }).answer c.nextTask
      (.ok .done) := by
  have hstarts : c.request .run =
      (({ c with nextTask := c.nextTask + 1 } : Controller).hold c.nextTask).startLoop
        c.nextTask := by
    rcases h.state with hs | hs <;> simp [request, run, guarded, hold, hs, h.free]
  have hline : ((({ c with nextTask := c.nextTask + 1 } : Controller).hold c.nextTask).setState
      .running).withLoop.line = [] := h.line
  rw [hstarts, startLoop_eq, conclude, release_of_line hline]

/-- A run starts with a loop that goes to sleep. -/
lemma AtRest.startsLoop (h : c.AtRest) : ∃ started l asleep,
    c.advance? (.request .run) = some started ∧ started.loop? = some l ∧
    started.advance? (.resumed l) = some asleep ∧ Asleep l c asleep := by
  obtain ⟨started, hstarted⟩ : ∃ started, started = ({ ((({ c with nextTask := c.nextTask + 1 } :
      Controller).hold c.nextTask).setState .running).withLoop with guard := none }).answer
      c.nextTask (.ok .done) := ⟨_, rfl⟩
  -- the request has taken one number, and the loop has the next
  have hloop : started.tasks[c.nextTask + 1]? = some ⟨.loop none, .turn⟩ := by
    subst hstarted
    exact (getElem?_erase_of_ne (Nat.succ_ne_self _)).trans (withLoop_tasks_self _)
  have hrest : AtRest { c with history := [] } := ⟨h.state, h.free, h.line⟩
  have hrun : c.advance? (.request .run) = some started := by
    have hmade : { c with history := [] }.perform? (.request .run) = _ :=
      congrArg some hrest.request_run
    rw [hstarted]
    exact advance?_eq_some hmade
  have hturn : { started with history := [] }.perform? (.resumed (c.nextTask + 1)) =
      some ({ started with history := [] }.beginTurn (c.nextTask + 1) none) := by
    simp [perform?, hloop, resume?]
  refine ⟨started, c.nextTask + 1, _, hrun, ?_, advance?_eq_some hturn, ?_⟩
  · have hhandle : started.handle = some (c.nextTask + 1) := by
      subst hstarted
      rfl
    rw [loop?, hhandle, Option.filter_some, if_pos]
    rw [Std.ExtTreeMap.contains_eq_isSome_getElem?, hloop]
    rfl
  · subst hstarted
    exact ⟨⟨rfl, h.line, h.line, rfl⟩, h.free, rfl, suspend_tasks_self .., h.state⟩

/-- Where no task has the guard, no loop is in line for it. -/
lemma Run.atRest {settings : ControllerSettings} {log : List LogEntry}
    (h : Run (.ofSettings settings) log c) (hs : c.state = .ready ∨ c.state = .paused)
    (hg : c.guard = none) : c.AtRest :=
  ⟨hs, hg, (disciplined_of_run h).unheld hg⟩

/-- A continuous run agrees with single steps. For every script of answers it takes some number of
turns, until the script or the loop has ended, and so many single steps lead to the same session
with the same requests to the simulator and the same messages apart from execution states. Where the
loop has ended by itself, the execution state is the same as well, and it is paused or idle. -/
theorem continuousRun_agrees_with_singleSteps (h : c.AtRest) (script : List StepAnswers) :
    ∃ k d e, c.continuousRun? script = some (k, d) ∧ c.singleSteps? (script.take k) = some e ∧
      d.session = e.session ∧ d.requests = e.requests ∧ d.announcements = e.announcements ∧
      ((∃ l, d.loop? = some l) ∧ k = script.length ∨
        d.loop? = none ∧ d.state = e.state ∧ (d.state = .paused ∨ d.state = .idle)) := by
  obtain ⟨started, l, asleep, hrun, hloop, hturn, hasleep⟩ := h.startsLoop
  obtain ⟨k, e, d, hturns, hsteps, hend⟩ := Settled.turns script (.inl hasleep)
  have hmatched : Matched l e d := by
    rcases hend with ⟨hasleep, _⟩ | hended
    · exact hasleep.toMatched
    · exact hended.toMatched
  refine ⟨k, d, e, ?_, hsteps, (congrArg Account.session hmatched.account).symm,
    (congrArg Account.requests hmatched.account).symm,
    (congrArg Account.announcements hmatched.account).symm, ?_⟩
  · simp only [continuousRun?, hrun, hloop, hturn, hturns, Option.bind_eq_bind, Option.bind_some]
  · rcases hend with ⟨hasleep, hk⟩ | hended
    · exact .inl ⟨⟨l, hasleep.loop?_eq⟩, hk⟩
    · refine .inr ⟨hended.loop?_eq, hended.state, ?_⟩
      rw [hended.state]
      exact hended.final

/-- Two steps lead on, a read of the second fails, and the third step leaves the program counter
where it was. -/
def threeSteps : List StepAnswers :=
  [.inOrder (.ok { pc := 3 }) (fun _ => .ok [0]) (.ok ()),
    .inOrder (.ok { pc := 6 }) (fun _ => .error .busy) (.ok ()),
    .inOrder (.ok { pc := 6 }) (fun _ => .ok [0]) (.error .busy)]

/-- A program that is run to its end. -/
theorem run_to_the_end_agrees : ∃ log c k d e,
    replay (.ofSettings oneSource) [.request .step, .began 0 (.ok ()),
      .loaded 0 (.ok (.loaded {} [])), .read 0 0 (.ok [])] = some (log, c) ∧
    c.AtRest ∧ c.continuousRun? threeSteps = some (k, d) ∧ k = 3 ∧
    c.singleSteps? (threeSteps.take k) = some e ∧ d.session = e.session ∧
    d.requests = e.requests ∧ d.announcements = e.announcements ∧
    d.state = e.state ∧ d.state = .idle := by
  obtain ⟨⟨log, c⟩, hlog⟩ := Option.isSome_iff_exists.mp (show (replay (.ofSettings oneSource)
    [.request .step, .began 0 (.ok ()), .loaded 0 (.ok (.loaded {} [])),
      .read 0 0 (.ok [])]).isSome = true by rfl)
  have hc : c = ((replay (.ofSettings oneSource) [.request .step, .began 0 (.ok ()),
      .loaded 0 (.ok (.loaded {} [])), .read 0 0 (.ok [])]).get (by rfl)).2 := by
    simp only [hlog, Option.get_some]
  have hrest : c.AtRest := by
    refine Run.atRest (.of_replay hlog) (.inl ?_) ?_
    · rw [hc]
      rfl
    · rw [hc]
      rfl
  obtain ⟨k, d, e, hrun, hsteps, hsession, hrequests, hannouncements, hend⟩ :=
    continuousRun_agrees_with_singleSteps hrest threeSteps
  have hturns : (c.continuousRun? threeSteps).map (fun p => (p.1, p.2.state, p.2.loop?)) =
      some (3, .idle, none) := by
    subst hc
    rfl
  rw [hrun, Option.map_some, Option.some.injEq, Prod.mk.injEq, Prod.mk.injEq] at hturns
  obtain ⟨hk, hidle, hgone⟩ := hturns
  refine ⟨log, c, k, d, e, hlog, hrest, hrun, hk, hsteps, hsession, hrequests, hannouncements, ?_,
    hidle⟩
  rcases hend with ⟨⟨l, hloop⟩, _⟩ | ⟨_, hstate, _⟩
  · rw [hgone] at hloop
    cases hloop
  · exact hstate

end Controller
end SicDebugger
