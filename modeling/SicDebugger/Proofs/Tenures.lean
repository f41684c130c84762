import SicDebugger.Proofs.Section

/-!
# Tenures of the guard

The events of a log say how they found the guard, so the log can be read as one tenure of the guard
after another. A tenure begins with the event that gives the guard to a task, or with the next one
if it was handed on to the task, and it ends with the event in which the task gives the guard back;
in between, all events find the guard with the task. Between tenures the guard is free.
-/

namespace SicDebugger

/-- What is asked while a task has the guard once, with the answers, the earliest first; or, without
a holder, while nobody has it. -/
structure Tenure where
  holder : Option TaskId
  calls : List LogEntry

/-- Tenures of which the latest takes in one more entry, if this is a call or an answer. -/
def record (x : LogEntry) (past : List Tenure) : List Tenure :=
  if x.isCall then
    match past with
    | [] => [⟨none, [x]⟩]
    | y :: earlier => ⟨y.holder, y.calls ++ [x]⟩ :: earlier
  else past

/-- The tenures, the latest first, once an event comes that finds the guard as `before` and leaves
it as `after`. -/
def arriveIn (before after : Option TaskId) (past : List Tenure) : List Tenure :=
  match before with
  | none => ⟨after, []⟩ :: past
  | some t => if past.head?.bind Tenure.holder = some t then past else ⟨some t, []⟩ :: past

/-- The tenures of a log, the latest first, where the guard is now as `after`. -/
def tenures : List LogEntry → Option TaskId → List Tenure
  | [], _ => []
  | .occurrence o :: log, after => record (.occurrence o) (tenures log after)
  | .event found e :: log, after =>
    record (.event found e) (arriveIn found.guard after (tenures log found.guard))

/-- The calls of the tenure of a task that has the guard. -/
def callsSoFar (log : List LogEntry) (t : TaskId) : List LogEntry :=
  match tenures log (some t) with
  | [] => []
  | y :: _ => if y.holder = some t then y.calls else []

/-- The tenures that have ended, the latest first, where the guard is now as `after`. -/
def endedTenures (log : List LogEntry) (after : Option TaskId) : List Tenure :=
  match tenures log after with
  | [] => []
  | y :: past => if after ≠ none ∧ y.holder = after then past else y :: past

/-- The request that was taken up as a task. A loop has none. -/
def requestOf (log : List LogEntry) (t : TaskId) : Option ViewRequest :=
  log.findSome? fun x =>
    match x with
    | .event found (.request r) => if found.nextTask = t then some r else none
    | _ => none

/-- How the latest event of a log found the guard. -/
def lastFound? : List LogEntry → Option (Option TaskId)
  | [] => none
  | .occurrence _ :: log => lastFound? log
  | .event found _ :: _ => some found.guard

/-- What of a log matters to the order of the guard. -/
def ledger (log : List LogEntry) :
    (Option TaskId → List Tenure) × (TaskId → Option ViewRequest) × Option (Option TaskId) :=
  (tenures log, requestOf log, lastFound? log)

variable {log log' : List LogEntry} {t : TaskId} {past : List Tenure}
  {current : List LogEntry} {found : Controller} {e : Event} {o : Occurrence}

/-! ## Entries that do not matter -/

lemma filter_isCall {x : LogEntry} (h : x.isCall = true) : [x].filter LogEntry.isCall = [x] :=
  List.filter_cons_of_pos h

lemma filter_not_isCall {x : LogEntry} (h : x.isCall = false) :
    [x].filter LogEntry.isCall = [] :=
  List.filter_cons_of_neg (by rw [h]; decide)

lemma record_cons (x : LogEntry) (y : Tenure) (past : List Tenure) :
    record x (y :: past) = ⟨y.holder, y.calls ++ [x].filter LogEntry.isCall⟩ :: past := by
  unfold record
  split
  · next hx => rw [filter_isCall hx]
  · next hx => rw [filter_not_isCall (eq_false_of_ne_true hx), List.append_nil]

/-- What comes of an event and is no call does not matter. -/
lemma ledger_of_not_isCall (h : (LogEntry.occurrence o).isCall = false) :
    ledger (.occurrence o :: log) = ledger log := by
  have htenures : tenures (.occurrence o :: log) = tenures log := by
    funext after
    exact if_neg (by rw [h]; decide)
  rw [ledger, htenures]
  rfl

/-- Where the ledgers are the same, all that is read off the logs is. -/
lemma of_ledger_eq (h : ledger log' = ledger log) :
    tenures log' = tenures log ∧ callsSoFar log' = callsSoFar log ∧
      endedTenures log' = endedTenures log ∧ requestOf log' = requestOf log ∧
      lastFound? log' = lastFound? log := by
  simp only [ledger, Prod.mk.injEq] at h
  obtain ⟨htenures, hrequests, hfound⟩ := h
  refine ⟨htenures, ?_, ?_, hrequests, hfound⟩
  · funext t
    rw [callsSoFar, callsSoFar, htenures]
  · funext after
    rw [endedTenures, endedTenures, htenures]

/-! ## Requests -/

/-- An event that takes up no request leaves it to the log which task carries out which. -/
lemma requestOf_of_not_request (h : ∀ r, e ≠ .request r) (t : TaskId) :
    requestOf (.event found e :: log) t = requestOf log t := by
  cases e with
  | request r => exact absurd rfl (h r)
  | began | loaded | stepped | read | checked | resumed => rfl

lemma requestOf_request (r : ViewRequest) (t : TaskId) :
    requestOf (.event found (.request r) :: log) t =
      if found.nextTask = t then some r else requestOf log t := by
  by_cases h : found.nextTask = t <;> simp [requestOf, h]

/-- What comes of an event takes up no request. -/
lemma requestOf_timeline (c : Controller) (past : List LogEntry) :
    requestOf (c.timeline past) = requestOf past := by
  rw [Controller.timeline]
  induction c.history with
  | nil => rfl
  | cons o rest ih => exact ih

lemma lastFound?_timeline (c : Controller) (past : List LogEntry) :
    lastFound? (c.timeline past) = lastFound? past := by
  rw [Controller.timeline]
  induction c.history with
  | nil => rfl
  | cons o rest ih => exact ih

/-! ## The tenure of the task that has the guard -/

lemma callsSoFar_of_eq (h : tenures log (some t) = ⟨some t, current⟩ :: past) :
    callsSoFar log t = current := by
  rw [callsSoFar, h]
  exact if_pos rfl

lemma endedTenures_of_eq (h : tenures log (some t) = ⟨some t, current⟩ :: past) :
    endedTenures log (some t) = past := by
  rw [endedTenures, h]
  exact if_pos ⟨nofun, rfl⟩

lemma endedTenures_none (log : List LogEntry) : endedTenures log none = tenures log none := by
  unfold endedTenures
  cases tenures log none with
  | nil => rfl
  | cons y past => exact if_neg fun h => h.1 rfl

/-- A task that is not the holder of the latest tenure has only just been given the guard. -/
lemma callsSoFar_of_ne {y : Tenure} (h : tenures log (some t) = y :: past)
    (hne : y.holder ≠ some t) :
    callsSoFar log t = [] ∧ endedTenures log (some t) = y :: past := by
  rw [callsSoFar, endedTenures, h]
  exact ⟨if_neg hne, if_neg fun hy => hne hy.2⟩

/-! ## Events -/

/-- An event that finds the guard with a task belongs to the tenure of the task. -/
lemma tenures_of_held (h : found.guard = some t) (after : Option TaskId) :
    tenures (.event found e :: log) after =
      ⟨some t, callsSoFar log t ++ [.event found e].filter LogEntry.isCall⟩ ::
        endedTenures log (some t) := by
  have hin : arriveIn (some t) after (tenures log (some t)) =
      ⟨some t, callsSoFar log t⟩ :: endedTenures log (some t) := by
    rw [callsSoFar, endedTenures, arriveIn]
    cases tenures log (some t) with
    | nil => rfl
    | cons y earlier =>
      obtain ⟨holder, calls⟩ := y
      by_cases hy : holder = some t
      · subst hy
        simp
      · simp [hy]
  rw [tenures, h, hin, record_cons]

/-- An event that finds the guard free begins a tenure of the task that gets it. -/
lemma tenures_of_free (h : found.guard = none) (after : Option TaskId) :
    tenures (.event found e :: log) after =
      ⟨after, [.event found e].filter LogEntry.isCall⟩ :: endedTenures log none := by
  rw [tenures, h, endedTenures_none, arriveIn, record_cons, List.nil_append]

/-- An event that is no answer leaves it at what the task that has the guard has called. -/
lemma callsSoFar_of_not_isCall (h : found.guard = some t)
    (he : (LogEntry.event found e).isCall = false) :
    callsSoFar (.event found e :: log) t = callsSoFar log t := by
  have htenure : tenures (.event found e :: log) (some t) = _ := tenures_of_held h (some t)
  rw [filter_not_isCall he, List.append_nil] at htenure
  exact callsSoFar_of_eq htenure

/-- Before an event that is no answer and leaves the guard where it is, a tenure has ended that has
ended behind it, unless nothing was called in it. -/
lemma mem_endedTenures_of_not_isCall {x : Tenure} (he : (LogEntry.event found e).isCall = false)
    (hx : x ∈ endedTenures (.event found e :: log) found.guard) :
    x.calls = [] ∨ x ∈ endedTenures log found.guard := by
  cases hfound : found.guard with
  | none =>
    rw [hfound, endedTenures_none, tenures_of_free hfound, filter_not_isCall he] at hx
    rcases List.mem_cons.mp hx with rfl | hx
    · exact .inl rfl
    · exact .inr hx
  | some t =>
    rw [hfound, endedTenures_of_eq (tenures_of_held hfound (some t))] at hx
    exact .inr hx

/-- Behind an event that found the guard with a task the latest tenure is that of the task, wherever
the guard goes. -/
lemma tenures_of_lastFound_held (h : lastFound? log = some (some t)) (after : Option TaskId) :
    tenures log after = ⟨some t, callsSoFar log t⟩ :: endedTenures log (some t) := by
  -- it is enough that the tenures do not depend on where the guard goes
  suffices hall : ∃ current past, ∀ after, tenures log after = ⟨some t, current⟩ :: past by
    obtain ⟨current, past, hall⟩ := hall
    rw [hall after, callsSoFar_of_eq (hall (some t)), endedTenures_of_eq (hall (some t))]
  induction log with
  | nil => cases h
  | cons x log ih =>
    cases x with
    | occurrence o =>
      obtain ⟨current, past, hall⟩ := ih h
      exact ⟨_, past, fun after => by rw [tenures, hall, record_cons]⟩
    | event found e => exact ⟨_, _, tenures_of_held (Option.some.inj h)⟩

/-- Behind an event that found the guard free the latest tenure is that of the task that gets it. -/
lemma exists_tenures_of_lastFound_free (h : lastFound? log = some none) :
    ∃ current past, ∀ after, tenures log after = ⟨after, current⟩ :: past := by
  induction log with
  | nil => cases h
  | cons x log ih =>
    cases x with
    | occurrence o =>
      obtain ⟨current, past, hall⟩ := ih h
      refine ⟨current ++ [.occurrence o].filter LogEntry.isCall, past, fun after => ?_⟩
      rw [tenures, hall, record_cons]
    | event found e => exact ⟨_, _, tenures_of_free (Option.some.inj h)⟩

/-! ## All calls -/

lemma calls_record (x : LogEntry) (past : List Tenure) :
    ((record x past).reverse.map Tenure.calls).flatten =
      (past.reverse.map Tenure.calls).flatten ++ [x].filter LogEntry.isCall := by
  unfold record
  split
  · next hx =>
    rw [filter_isCall hx]
    cases past <;> simp
  · next hx => rw [filter_not_isCall (eq_false_of_ne_true hx), List.append_nil]

lemma calls_arriveIn (before after : Option TaskId) (past : List Tenure) :
    ((arriveIn before after past).reverse.map Tenure.calls).flatten =
      (past.reverse.map Tenure.calls).flatten := by
  unfold arriveIn
  split
  · simp
  · split <;> simp

/-- The calls of a log are those of its tenures, one after the other. -/
lemma calls_eq_flatten (log : List LogEntry) (after : Option TaskId) :
    calls log = ((tenures log after).reverse.map Tenure.calls).flatten := by
  induction log generalizing after with
  | nil => rfl
  | cons x log ih =>
    have hcalls : calls (x :: log) = calls log ++ [x].filter LogEntry.isCall := by
      rw [calls, calls, List.filter_cons, List.filter_cons]
      split <;> simp
    cases x with
    | occurrence o => rw [hcalls, ih after, tenures, calls_record]
    | event found e => rw [hcalls, ih found.guard, tenures, calls_record, calls_arriveIn]

/-- The calls of a log are those of the tenures that have ended and then those of the task that has
the guard. -/
lemma calls_eq_append (log : List LogEntry) (after : Option TaskId) :
    calls log = ((endedTenures log after).reverse.map Tenure.calls).flatten ++
      after.elim [] (callsSoFar log) := by
  rw [calls_eq_flatten log after]
  cases after with
  | none => rw [endedTenures_none, Option.elim_none, List.append_nil]
  | some t =>
    rw [Option.elim_some, endedTenures, callsSoFar]
    cases tenures log (some t) with
    | nil => rfl
    | cons y past =>
      by_cases hy : y.holder = some t <;> simp [hy]

end SicDebugger
