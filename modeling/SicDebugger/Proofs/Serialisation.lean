import SicDebugger.Proofs.Discipline

/-!
# The calls of the simulator are serialised

In every run each tenure of the guard has one section of its holder in it, or no call at all, and
the calls of the simulator are those of the tenures, one after the other. What is outstanding at any
time is therefore a single call, or memory reads of one section. Reads are sent only once the load
or the step that they belong to has been answered and the session has taken the answer.
-/

namespace SicDebugger

/-! ## Outstanding calls -/

/-- A call of the simulator. -/
structure Call where
  task : TaskId
  slot : Nat
  request : SimulatorRequest

namespace Call

/-- The entry of the log that says that the call was sent. -/
def entry (x : Call) : LogEntry := .occurrence (.sent x.task x.slot x.request)

/-- Whether the call reads memory. -/
def isRead (x : Call) : Bool :=
  match x.request with
  | .memory .. => true
  | _ => false

/-- Whether an event is the answer to the call. -/
def isAnsweredBy (x : Call) (e : Event) : Bool :=
  match x.request, e with
  | .begin _, .began t _ => t == x.task
  | .load _, .loaded t _ => t == x.task
  | .step, .stepped t _ => t == x.task
  | .memory .., .read t slot _ => t == x.task && slot == x.slot
  | _, _ => false

end Call

/-- The calls that are outstanding after an entry of the log. Syntax checks do not count. -/
def LogEntry.leaves : LogEntry → List Call → List Call
  | .occurrence (.sent _ _ (.check ..)), waiting => waiting
  | .occurrence (.sent t slot r), waiting => waiting ++ [⟨t, slot, r⟩]
  | .occurrence _, waiting => waiting
  | .event _ e, waiting => waiting.filter fun x => !x.isAnsweredBy e

/-- The calls of a log that have not been answered, the earliest first. -/
def outstanding (log : List LogEntry) : List Call := log.foldr LogEntry.leaves []

/-- The calls that are outstanding after entries, of which the first is the earliest. -/
def leftBy (entries : List LogEntry) (waiting : List Call) : List Call :=
  entries.foldl (fun waiting x => x.leaves waiting) waiting

lemma leftBy_append (first second : List LogEntry) (waiting : List Call) :
    leftBy (first ++ second) waiting = leftBy second (leftBy first waiting) :=
  List.foldl_append

/-- An entry that is no call answers none. -/
lemma leaves_of_not_isCall {x : LogEntry} (h : x.isCall = false) (waiting : List Call) :
    x.leaves waiting = waiting := by
  have hkeep (e : Event) (hne : ∀ y : Call, y.isAnsweredBy e = false) :
      (waiting.filter fun y => !y.isAnsweredBy e) = waiting := by
    rw [List.filter_eq_self]
    intro y _
    rw [hne y]
    rfl
  cases x with
  | occurrence o =>
    cases o with
    | sent t slot r =>
      cases r with
      | check texts names => rfl
      | begin | load | step | memory => cases h
    | published | slept | ready | answered => rfl
  | event found e =>
    cases e with
    | request r => exact hkeep _ fun y => by cases hy : y.request <;> simp [Call.isAnsweredBy, hy]
    | resumed t => exact hkeep _ fun y => by cases hy : y.request <;> simp [Call.isAnsweredBy, hy]
    | checked t r => exact hkeep _ fun y => by cases hy : y.request <;> simp [Call.isAnsweredBy, hy]
    | began | loaded | stepped | read => cases h

lemma outstanding_eq_leftBy (log : List LogEntry) : outstanding log = leftBy (calls log) [] := by
  rw [leftBy, calls, List.foldl_reverse, outstanding]
  induction log with
  | nil => rfl
  | cons x past ih =>
    cases h : x.isCall with
    | false => rw [List.filter_cons_of_neg (by rw [h]; decide), List.foldr_cons,
        leaves_of_not_isCall h, ih]
    | true => rw [List.filter_cons_of_pos h, List.foldr_cons, List.foldr_cons, ih]

/-- What is outstanding has been sent. -/
lemma entry_mem_of_mem_leftBy {entries : List LogEntry} {waiting : List Call} {x : Call}
    (h : x ∈ leftBy entries waiting) : x ∈ waiting ∨ x.entry ∈ entries := by
  induction entries generalizing waiting with
  | nil => exact .inl h
  | cons y ys ih =>
    rcases ih h with hx | hx
    · cases y with
      | occurrence o =>
        cases o with
        | sent t slot r =>
          cases r with
          | check => exact .inl hx
          | begin | load | step | memory =>
            rcases List.mem_append.mp hx with hx | hx
            · exact .inl hx
            · rw [List.mem_singleton.mp hx]
              exact .inr List.mem_cons_self
        | published | slept | ready | answered => exact .inl hx
      | event found e => exact .inl (List.mem_filter.mp hx).1
    · exact .inr (List.mem_cons_of_mem _ hx)

/-! ## Outstanding calls of a section -/

open Controller

/-- The calls of the reads of a refresh. -/
def readCalls (t : TaskId) (targets : List ReadTarget) : List Call :=
  (pendingReads targets).map fun p => ⟨t, p.slot, readRequest p.target.range⟩

lemma leftBy_readsSent (t : TaskId) (targets : List ReadTarget) :
    leftBy (readsSent t targets) [] = readCalls t targets := by
  suffices h : ∀ (pending : List PendingRead) (waiting : List Call),
      leftBy (pending.map fun p => .occurrence (.sent t p.slot (readRequest p.target.range)))
        waiting = waiting ++ pending.map fun p => ⟨t, p.slot, readRequest p.target.range⟩ by
    exact h _ []
  intro pending
  induction pending with
  | nil => simp [leftBy]
  | cons p rest ih =>
    intro waiting
    rw [List.map_cons, List.map_cons, List.append_cons, ← ih]
    rfl

lemma isRead_of_mem_readCalls {t : TaskId} {targets : List ReadTarget} {x : Call}
    (h : x ∈ readCalls t targets) : x.isRead = true := by
  obtain ⟨p, _, rfl⟩ := List.mem_map.mp h
  rfl

/-- A read is outstanding as long as no answer has come for its slot. -/
lemma leftBy_answers (t : TaskId) (answers : List ReadAnswer) (waiting : List Call) :
    leftBy (answers.map (ReadAnswer.entry t)) waiting =
      waiting.filter fun x => answers.all fun a => !x.isAnsweredBy (.read t a.slot a.result) := by
  induction answers generalizing waiting with
  | nil => exact (List.filter_eq_self.mpr fun _ _ => rfl).symm
  | cons a rest ih =>
    rw [List.map_cons, leftBy, List.foldl_cons, ← leftBy, ih]
    simp only [ReadAnswer.entry, LogEntry.leaves, List.filter_filter, List.all_cons]
    congr 1
    funext x
    exact Bool.and_comm _ _

variable {served : Option ViewRequest} {t : TaskId} {w : Wait} {current : List LogEntry}

lemma leftBy_opening {opening : List LogEntry} {targets : List ReadTarget}
    (h : Opening served t opening targets) : leftBy opening [] = [] := by
  cases h <;> simp [leftBy, LogEntry.leaves, LogEntry.asked, Call.isAnsweredBy]

/-- Once all reads of a refresh are answered, none is outstanding. -/
lemma leftBy_reads {targets : List ReadTarget} {entries : List LogEntry}
    (h : Reads t targets entries) : leftBy entries [] = [] := by
  obtain ⟨answers, rfl, hperm⟩ := h
  rw [leftBy_append, leftBy_readsSent, leftBy_answers, List.filter_eq_nil_iff]
  intro x hx hall
  -- a read that is still outstanding would have an answer among those to all slots
  obtain ⟨p, hp, rfl⟩ := List.mem_map.mp hx
  have hslot : p.slot ∈ answers.map (·.slot) := by
    rw [hperm.mem_iff, ← slots_pendingReads]
    exact List.mem_map_of_mem hp
  obtain ⟨a, ha, hslot⟩ := List.mem_map.mp hslot
  have hnot := List.all_eq_true.mp hall a ha
  simp [Call.isAnsweredBy, readRequest, hslot] at hnot

/-- A section leaves nothing outstanding. -/
theorem leftBy_section {entries : List LogEntry} (h : Section served t entries) :
    leftBy entries [] = [] := by
  cases h with
  | refreshed hopen hreads => rw [leftBy_append, leftBy_opening hopen, leftBy_reads hreads]
  | windowRead => simp [leftBy, LogEntry.leaves, LogEntry.asked, Call.isAnsweredBy, readRequest]
  | beginFailed | loadFailed | ended | reset =>
    simp [leftBy, LogEntry.leaves, LogEntry.asked, Call.isAnsweredBy]

/-- While a section is unfinished, a single call is outstanding or memory reads are. -/
theorem leftBy_unfinished (h : Unfinished served t w current) :
    (leftBy current []).Pairwise fun x y => x.isRead = true ∧ y.isRead = true := by
  cases h with
  | refresh hopen hreads _ =>
    obtain ⟨answers, rfl, _⟩ := hreads
    rw [leftBy_append, leftBy_opening hopen, leftBy_append, leftBy_readsSent, leftBy_answers]
    refine List.Pairwise.filter _ (List.pairwise_of_forall_mem_list fun x hx y hy => ?_)
    exact ⟨isRead_of_mem_readCalls hx, isRead_of_mem_readCalls hy⟩
  | begin | load | step | reset | ended | windowRead | inLine =>
    simp [leftBy, LogEntry.leaves, LogEntry.asked, Call.isAnsweredBy, readRequest]

/-- A task sends the calls of its own section. -/
lemma Unfinished.task_of_sent {u : TaskId} {slot : Nat} {r : SimulatorRequest}
    (h : Unfinished served t w current) (hs : .occurrence (.sent u slot r) ∈ current) : u = t := by
  cases h with
  | refresh hopen hreads _ =>
    obtain ⟨answers, rfl, _⟩ := hreads
    cases hopen <;> simp [LogEntry.asked, readsSent, ReadAnswer.entry] at hs <;> grind
  | begin | step | reset | windowRead =>
    simp [LogEntry.asked] at hs
    exact hs.1
  | load | ended =>
    simp [LogEntry.asked] at hs
    rcases hs with hs | hs
    · exact hs.1
    · exact hs.1
  | inLine => cases hs

/-- An unfinished section that has begun can still come to its end. -/
lemma Unfinished.extends (h : Unfinished served t w current) (hne : current ≠ [])
    (found : Controller) : ∃ rest, rest ≠ [] ∧ Section served t (current ++ rest) := by
  cases h with
  | begin hs => exact ⟨[.event found (.began t (.error .busy))], by simp, .beginFailed hs⟩
  | load hs =>
    exact ⟨[.event found (.loaded t (.error .busy))], by simp,
      .loadFailed hs fun _ _ hr => by cases hr⟩
  | step hs =>
    exact ⟨[.event found (.stepped t (.error .busy)), .asked t (.begin found.settings.mode),
      .event found (.began t (.ok ()))], by simp, .ended hs trivial⟩
  | refresh hopen hreads hleft =>
    next opening targets reads pending next =>
    -- the reads that are pending can be answered in the order in which they are
    obtain ⟨answers, rfl, hperm⟩ := hreads
    refine ⟨(pending.map fun p => ⟨found, p.slot, .error .busy⟩).map (ReadAnswer.entry t),
      by simpa using hleft, ?_⟩
    rw [List.append_assoc, List.append_assoc, ← List.map_append]
    exact .refreshed hopen ⟨_, rfl, by simpa [Function.comp_def] using hperm⟩
  | reset hs => exact ⟨[.event found (.began t (.ok ()))], by simp, .reset hs⟩
  | ended hs hends => exact ⟨[.event found (.began t (.ok ()))], by simp, .ended hs hends⟩
  | windowRead hs hrange =>
    exact ⟨[.event found (.read t 0 (.error .busy))], by simp, .windowRead hs hrange⟩
  | inLine _ => exact absurd rfl hne

/-! ## What reads wait for -/

/-- What the session has taken when an event brings memory reads about: a load or a step that was
answered in the event, or the move of the memory window. -/
inductive TakenBefore (c d : Controller) : Event → Prop where
  | load {t : TaskId} {registers files}
      (h : d.session = c.session.applyLoaded registers files) :
      TakenBefore c d (.loaded t (.ok (.loaded registers files)))
  | step {t : TaskId} {next} (hv : (c.session.applyStep next).2.verdict ≠ .finished)
      (h : d.session = (c.session.applyStep next).1) : TakenBefore c d (.stepped t (.ok next))
  | move {first last range} (hr : AddressRange.between first last = .ok range)
      (h : d.session = c.session.setWindow range) :
      TakenBefore c d (.request (.setWindow first last))

namespace Controller

/-- Memory is read once the session has taken what the read is for. -/
theorem takenBefore_of_sent {c d : Controller} {e : Event} {news : List Occurrence} {t : TaskId}
    {slot : Nat} {first last : UInt32} (hd : c.happen? e = some (d, news))
    (hsound : Sound c) (hs : .sent t slot (.memory first last) ∈ news) : TakenBefore c d e := by
  obtain ⟨d', hd', rfl, rfl⟩ := happen?_eq_some hd
  -- only three events prompt memory reads
  have hprompts := (prompts_of_sent (hsound.forget []) hd' rfl (List.mem_reverse.mp hs)).2
  generalize hr : SimulatorRequest.memory first last = r at hprompts
  cases hprompts with
  | window hrange hg hstate =>
    cases hd'
    refine .move hrange ?_
    simp only [Controller.request, setWindow, hrange]
    split
    · rfl
    · rfl
  | loaded =>
    obtain ⟨_, goal, _, rfl⟩ := perform?_loaded hd'
    exact .load (refresh_session _ _ .request (.load goal))
  | stepped hv =>
    obtain ⟨role, _, rfl⟩ := perform?_stepped hd'
    exact .step hv (afterStep_session _ _ role _)
  | load | step | stop | check | begun | ended | woken | served | freed => cases hr

/-! ## All runs -/

/-- The calls of a log are serialised where the controller is now. -/
structure Serialised (log : List LogEntry) (c : Controller) : Prop where
  /-- The calls and their answers are those of the tenures of the guard, one after the other. The
  last is the tenure of the task that has the guard now. -/
  inOrder : calls log = ((endedTenures log c.guard).reverse.map Tenure.calls).flatten ++
    c.guard.elim [] (callsSoFar log)
  /-- In a tenure that has ended there is one section of its holder, for the request that the holder
  carries out, or no call at all. -/
  ended : ∀ x ∈ endedTenures log c.guard, x.calls = [] ∨
    ∃ t, x.holder = some t ∧ HeldBy t x.calls ∧ Section (requestOf log t) t x.calls
  /-- The task that has the guard now has not called yet, or is in the middle of its one section. -/
  current : ∀ t, c.guard = some t → callsSoFar log t = [] ∨
    HeldBy t (callsSoFar log t) ∧
      ∃ rest, rest ≠ [] ∧ Section (requestOf log t) t (callsSoFar log t ++ rest)
  /-- What is outstanding was called by the task that has the guard, since it has had it. -/
  guarded : ∀ x ∈ outstanding log, c.guard = some x.task ∧ x.entry ∈ callsSoFar log x.task
  /-- Two calls that are outstanding together are both memory reads. -/
  apart : (outstanding log).Pairwise fun x y => x.isRead = true ∧ y.isRead = true
  /-- Memory is read once the session has taken what the read is for. -/
  taken : ∀ e d news t slot first last, c.happen? e = some (d, news) →
    .sent t slot (.memory first last) ∈ news → TakenBefore c d e

/-- Nothing is outstanding from the tenures that have ended. -/
lemma outstanding_of_disciplined {log : List LogEntry} {c : Controller} (h : Disciplined log c) :
    outstanding log = leftBy (c.guard.elim [] (callsSoFar log)) [] := by
  have hnone (past : List Tenure) (hp : ∀ x ∈ past, leftBy x.calls [] = []) :
      leftBy (past.map Tenure.calls).flatten [] = [] := by
    induction past with
    | nil => rfl
    | cons x rest ih =>
      rw [List.map_cons, List.flatten_cons, leftBy_append, hp x List.mem_cons_self]
      exact ih fun y hy => hp y (List.mem_cons_of_mem x hy)
  rw [outstanding_eq_leftBy, calls_eq_append log c.guard, leftBy_append, hnone]
  intro x hx
  rcases h.ended x (List.mem_reverse.mp hx) with hx | ⟨_, _, _, _, hsection⟩
  · rw [hx]
    rfl
  · exact leftBy_section hsection

/-- The calls of every run are serialised. -/
theorem calls_serialised {settings : ControllerSettings} {log : List LogEntry} {c : Controller}
    (h : Run (.ofSettings settings) log c) : Serialised log c := by
  have horder := disciplined_of_run h
  have hleft := outstanding_of_disciplined horder
  have hentry (t : TaskId) (hg : c.guard = some t) (x : Call) (hx : x ∈ outstanding log) :
      x.entry ∈ callsSoFar log t := by
    rw [hleft, hg] at hx
    exact (entry_mem_of_mem_leftBy hx).resolve_left (by simp)
  exact {
    inOrder := calls_eq_append log c.guard
    ended := fun x hx => (horder.ended x hx).imp id fun ⟨t, _, hholder, hheld, hsection⟩ =>
      ⟨t, hholder, hheld, hsection⟩
    current := fun t hg => by
      obtain ⟨task, _, hun, hheld⟩ := horder.holder t hg
      by_cases hne : callsSoFar log t = []
      · exact .inl hne
      · exact .inr ⟨hheld, hun.extends hne c⟩
    guarded := fun x hx => by
      cases hg : c.guard with
      | none =>
        rw [hleft, hg] at hx
        cases hx
      | some t =>
        obtain ⟨task, _, hun, _⟩ := horder.holder t hg
        have hx := hentry t hg x hx
        obtain rfl : x.task = t := hun.task_of_sent hx
        exact ⟨rfl, hx⟩
    apart := by
      rw [hleft]
      cases hg : c.guard with
      | none => exact List.Pairwise.nil
      | some t =>
        obtain ⟨task, _, hun, _⟩ := horder.holder t hg
        exact leftBy_unfinished hun
    taken := fun _ _ _ _ _ _ _ hd hs => takenBefore_of_sent hd (sound_of_run h) hs }

/-- The reads of a step are under way here, behind the sections of a load and of its reads. -/
theorem calls_serialised_while_reading : ∃ log c,
    replay (.ofSettings oneSource) [.request .step, .began 0 (.ok ()),
      .loaded 0 (.ok (.loaded {} [])), .read 0 0 (.ok []), .request .step,
      .stepped 1 (.ok { pc := 3 })] = some (log, c) ∧ Serialised log c := by
  obtain ⟨⟨log, c⟩, h⟩ := Option.isSome_iff_exists.mp (show (replay (.ofSettings oneSource)
    [.request .step, .began 0 (.ok ()), .loaded 0 (.ok (.loaded {} [])), .read 0 0 (.ok []),
      .request .step, .stepped 1 (.ok { pc := 3 })]).isSome = true by rfl)
  exact ⟨log, c, h, calls_serialised (.of_replay h)⟩

/-- Each step of a loop has a tenure of its own. Here one step is over and the next one has been
sent, behind the load of the run and the first turn of the loop, which does not need the guard. -/
example : (replay (.ofSettings oneSource) [.request .run, .began 0 (.ok ()),
      .loaded 0 (.ok (.loaded {} [])), .read 0 0 (.ok []), .resumed 1, .resumed 1,
      .stepped 1 (.ok { pc := 3 }), .read 1 0 (.ok []), .resumed 1]).map (fun p =>
        (tenures p.1 p.2.guard).map fun x => (x.holder, x.calls.length)) =
    some [(some 1, 1), (some 1, 4), (none, 0), (some 0, 6)] := by
  rfl

end Controller
end SicDebugger
