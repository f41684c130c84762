import SicDebugger.Proofs.Effects
import SicDebugger.Proofs.Tenures

/-!
# The guard

Between two events the guard is in order: the task that has it waits in the middle of a section, or
is a loop that has only just been given it; no other task waits for an answer that belongs to a
section; the loops in line all wait for it; nobody is in line for a guard that is free; and what was
asked in each tenure that has ended is one section. An event sets one task to work, with the guard
or without it, and the order is there again when that task waits or ends.
-/

namespace SicDebugger

namespace Wait

/-- Whether a task that waits so is in a section. -/
def isInSection : Wait → Bool
  | .begin _ => true
  | .load _ => true
  | .step => true
  | .refresh .. => true
  | .reset _ => true
  | .windowRead _ => true
  | _ => false

/-- Whether a task that waits so has nothing to do with the guard. -/
def isFree : Wait → Bool
  | .check => true
  | .loopEnd .. => true
  | .turn => true
  | .asleep => true
  | _ => false

/-- What it says of the request of a task that the task waits so, outside of a section. -/
def Serves (served : Option ViewRequest) : Wait → Prop
  | .inLine => served = none
  | .loopEnd _ .stop => served = some .stop
  | _ => True

lemma isInSection_of_isFree {w : Wait} (h : w.isFree = true) : w.isInSection = false := by
  cases w <;> first | rfl | cases h

lemma serves_of_isInSection {served : Option ViewRequest} {w : Wait} (h : w.isInSection = true) :
    w.Serves served := by
  cases w with
  | begin | load | step | refresh | reset | windowRead => trivial
  | check | loopEnd | turn | asleep | inLine => cases h

end Wait

/-- Whether it is the role of a loop. -/
def Role.isLoop : Role → Bool
  | .request => false
  | .loop _ => true

/-- A loop carries out no request. -/
def Role.Serves (served : Option ViewRequest) (role : Role) : Prop :=
  role.isLoop = true → served = none

/-- What of a task matters to the order of the guard. -/
def Task.kind (task : Task) : Bool × Wait := (task.role.isLoop, task.wait)

lemma Unfinished.not_isFree {served : Option ViewRequest} {t : TaskId} {w : Wait}
    {current : List LogEntry} (h : Unfinished served t w current) : w.isFree = false := by
  cases h <;> rfl

lemma Unfinished.serves {served : Option ViewRequest} {t : TaskId} {w : Wait}
    {current : List LogEntry} (h : Unfinished served t w current) : w.Serves served := by
  cases h with
  | inLine hs => exact hs
  | begin | load | step | refresh | reset | ended | windowRead =>
    exact Wait.serves_of_isInSection rfl

/-- What was asked in a tenure is one section of its holder, or nothing. The number of the holder is
below a bound, so that no later request is taken up under it. -/
def Tenure.InOrder (log : List LogEntry) (bound : TaskId) (x : Tenure) : Prop :=
  x.calls = [] ∨ ∃ t < bound, x.holder = some t ∧ HeldBy t x.calls ∧
    Section (requestOf log t) t x.calls

lemma Tenure.InOrder.mono {log log' : List LogEntry} {bound bound' : TaskId} {x : Tenure}
    (h : x.InOrder log bound) (hb : bound ≤ bound')
    (hr : ∀ t < bound, requestOf log' t = requestOf log t) : x.InOrder log' bound' := by
  rcases h with hnone | ⟨t, hlt, hholder, hheld, hsection⟩
  · exact .inl hnone
  · refine .inr ⟨t, Nat.lt_of_lt_of_le hlt hb, hholder, hheld, ?_⟩
    rw [hr t hlt]
    exact hsection

namespace Controller

/-- The order of the guard between two events. -/
structure Disciplined (log : List LogEntry) (c : Controller) : Prop where
  fresh : ∀ u task, c.tasks[u]? = some task → u < c.nextTask
  numbered : ∀ u, c.nextTask ≤ u → requestOf log u = none
  serves : ∀ (u : TaskId) task, c.tasks[u]? = some task →
    task.role.Serves (requestOf log u) ∧ task.wait.Serves (requestOf log u)
  inSection : ∀ u task, c.tasks[u]? = some task → task.wait.isInSection = true → c.guard = some u
  holder : ∀ t, c.guard = some t → ∃ task, c.tasks[t]? = some task ∧
    Unfinished (requestOf log t) t task.wait (callsSoFar log t) ∧ HeldBy t (callsSoFar log t)
  ended : ∀ x ∈ endedTenures log c.guard, x.InOrder log c.nextTask
  unheld : c.guard = none → c.line = []
  line : ∀ u ∈ c.line, c.guard ≠ some u ∧ ∃ role, c.tasks[u]? = some ⟨role, .inLine⟩
  nodup : c.line.Nodup

/-- The order of the guard while a task that has it is at work, with its section so far. The event
that set it to work found the guard with it, or free; it is then the first of its tenure. -/
structure Holding (log : List LogEntry) (c : Controller) (t : TaskId) (current : List LogEntry) :
    Prop where
  fresh : ∀ u task, c.tasks[u]? = some task → u < c.nextTask
  numbered : ∀ u, c.nextTask ≤ u → requestOf log u = none
  serves : ∀ (u : TaskId) task, u ≠ t → c.tasks[u]? = some task →
    task.role.Serves (requestOf log u) ∧ task.wait.Serves (requestOf log u)
  lt : t < c.nextTask
  guard : c.guard = some t
  others : ∀ u task, u ≠ t → c.tasks[u]? = some task → task.wait.isInSection = false
  line : ∀ u ∈ c.line, u ≠ t ∧ ∃ role, c.tasks[u]? = some ⟨role, .inLine⟩
  nodup : c.line.Nodup
  heldBy : HeldBy t current
  found : lastFound? log = some (some t) ∨
    lastFound? log = some none ∧ ∀ found e, .event found e ∉ current
  tenure : tenures log (some t) = ⟨some t, current⟩ :: endedTenures log (some t)
  ended : ∀ x ∈ endedTenures log (some t), x.InOrder log c.nextTask

section

variable {log log' past current : List LogEntry} {c d : Controller} {t : TaskId} {role : Role}

/-- A task that is there without another one is there while the other one waits. -/
lemma suspend_tasks_of_drop {u : TaskId} {task : Task} {w : Wait}
    (hu : (c.drop t).tasks[u]? = some task) : (c.suspend t role w).tasks[u]? = some task := by
  obtain ⟨hut, hu⟩ := drop_tasks_eq_some hu
  exact (suspend_tasks_of_ne hut).trans hu

/-- Where the kinds are the same there is a task that waits in the same way. -/
lemma exists_task_of_kinds {a b : Option Task} {task : Task}
    (h : a.map Task.kind = b.map Task.kind) (ha : a = some task) :
    ∃ role, b = some ⟨role, task.wait⟩ ∧ role.isLoop = task.role.isLoop := by
  rw [ha, Option.map_some] at h
  obtain ⟨⟨role, w⟩, hb, hkind⟩ := Option.map_eq_some_iff.mp h.symm
  obtain ⟨hrole, rfl⟩ := Prod.mk.inj hkind
  exact ⟨role, hb, hrole⟩

/-- Only the kinds of the tasks matter to the order of the guard. -/
lemma Disciplined.congr (h : Disciplined log c)
    (ht : ∀ u : TaskId, d.tasks[u]?.map Task.kind = c.tasks[u]?.map Task.kind)
    (hg : d.guard = c.guard) (hl : d.line = c.line) (hn : c.nextTask ≤ d.nextTask)
    (hc : ledger log' = ledger log) : Disciplined log' d := by
  obtain ⟨_, hsofar, hended, hrequests, _⟩ := of_ledger_eq hc
  exact {
    fresh := fun u task hu => by
      obtain ⟨_, hu', _⟩ := exists_task_of_kinds (ht u) hu
      exact Nat.lt_of_lt_of_le (h.fresh u _ hu') hn
    numbered := fun u hu => by
      rw [hrequests]
      exact h.numbered u (Nat.le_trans hn hu)
    serves := fun u task hu => by
      obtain ⟨role, hu', hrole⟩ := exists_task_of_kinds (ht u) hu
      rw [hrequests, Role.Serves, ← hrole]
      exact h.serves u _ hu'
    inSection := fun u task hu hin => by
      obtain ⟨_, hu', _⟩ := exists_task_of_kinds (ht u) hu
      exact hg ▸ h.inSection u _ hu' hin
    holder := fun u hu => by
      obtain ⟨task, htask, hrest⟩ := h.holder u (hg ▸ hu)
      obtain ⟨_, hu', _⟩ := exists_task_of_kinds (ht u).symm htask
      rw [hrequests, hsofar]
      exact ⟨_, hu', hrest⟩
    ended := fun x hx => by
      rw [hended, hg] at hx
      exact (h.ended x hx).mono hn fun u _ => congrFun hrequests u
    unheld := fun hu => hl ▸ h.unheld (hg ▸ hu)
    line := fun u hu => by
      obtain ⟨hguard, _, htask⟩ := h.line u (hl ▸ hu)
      obtain ⟨role, hu', _⟩ := exists_task_of_kinds (ht u).symm htask
      exact ⟨hg ▸ hguard, role, hu'⟩
    nodup := hl ▸ h.nodup }

lemma Disciplined.forget (h : Disciplined log c) (past : List Occurrence) :
    Disciplined log { c with history := past } :=
  h.congr (fun _ => rfl) rfl rfl (Nat.le_refl _) rfl

lemma Holding.congr (h : Holding log c t current) (ht : ∀ u : TaskId, d.tasks[u]? = c.tasks[u]?)
    (hg : d.guard = c.guard) (hl : d.line = c.line) (hn : d.nextTask = c.nextTask)
    (hc : ledger log' = ledger log) : Holding log' d t current := by
  obtain ⟨htenures, _, hended, hrequests, hfound⟩ := of_ledger_eq hc
  exact {
    fresh := fun u task hu => hn ▸ h.fresh u task (ht u ▸ hu)
    numbered := fun u hu => by
      rw [hrequests]
      exact h.numbered u (hn ▸ hu)
    serves := fun u task hut hu => by
      rw [hrequests]
      exact h.serves u task hut (ht u ▸ hu)
    lt := hn ▸ h.lt
    guard := hg ▸ h.guard
    others := fun u task hne hu => h.others u task hne (ht u ▸ hu)
    line := fun u hu => by
      obtain ⟨hne, role, htask⟩ := h.line u (hl ▸ hu)
      exact ⟨hne, role, ht u ▸ htask⟩
    nodup := hl ▸ h.nodup
    heldBy := h.heldBy
    found := hfound ▸ h.found
    tenure := by
      rw [htenures, hended]
      exact h.tenure
    ended := fun x hx => by
      rw [hended] at hx
      exact (h.ended x hx).mono (Nat.le_of_eq hn.symm) fun u _ => congrFun hrequests u }

/-! ## A task at work without the guard -/

/-- A task that has nothing to do with the guard can be left out. -/
lemma Disciplined.drop (h : Disciplined log c)
    (hfree : ∀ task, c.tasks[t]? = some task → task.wait.isFree = true) :
    Disciplined log (c.drop t) := by
  have hkeep : ∀ (u : TaskId) task, c.tasks[u]? = some task → task.wait.isFree = false → u ≠ t := by
    rintro u task hu hw rfl
    rw [hfree task hu] at hw
    cases hw
  have hstay : ∀ (u : TaskId) task, c.tasks[u]? = some task → task.wait.isFree = false →
      (c.drop t).tasks[u]? = some task := by
    intro u task hu hw
    rw [drop_tasks_of_ne (hkeep u task hu hw)]
    exact hu
  exact {
    fresh := fun u task hu => h.fresh u task (drop_tasks_eq_some hu).2
    numbered := h.numbered
    serves := fun u task hu => h.serves u task (drop_tasks_eq_some hu).2
    inSection := fun u task hu => h.inSection u task (drop_tasks_eq_some hu).2
    holder := fun u hu => by
      obtain ⟨task, htask, hun, hheld⟩ := h.holder u hu
      exact ⟨task, hstay u task htask hun.not_isFree, hun, hheld⟩
    ended := h.ended
    unheld := h.unheld
    line := fun u hu => by
      obtain ⟨hguard, role, htask⟩ := h.line u hu
      exact ⟨hguard, role, hstay u _ htask rfl⟩
    nodup := h.nodup }

/-- Whatever is noted that is no call leaves the order alone. -/
lemma Disciplined.note {o : Occurrence} (h : Disciplined (c.timeline past) c)
    (ho : (LogEntry.occurrence o).isCall = false) :
    Disciplined ((c.note o).timeline past) (c.note o) :=
  h.congr (fun _ => rfl) rfl rfl (Nat.le_refl _) (ledger_of_not_isCall ho)

lemma Disciplined.answer {result : Except Error Reply}
    (h : Disciplined (c.timeline past) (c.drop t)) :
    Disciplined ((c.answer t result).timeline past) (c.answer t result) :=
  Disciplined.note (c := c.drop t) h rfl

lemma Disciplined.endLoop (h : Disciplined (c.timeline past) (c.drop t)) :
    Disciplined ((c.endLoop t).timeline past) (c.endLoop t) :=
  endLoop_induction (P := fun d => Disciplined (d.timeline past) d) h fun _ _ hd => hd.note rfl

lemma Disciplined.leaveLoop (halt : Halt) (h : Disciplined (c.timeline past) (c.drop t)) :
    Disciplined ((c.leaveLoop t halt).timeline past) (c.leaveLoop t halt) := by
  cases halt with
  | pause =>
    exact Disciplined.endLoop (c := c.setState .paused)
      (h.congr (fun _ => rfl) rfl rfl (Nat.le_refl _) rfl)
  | stop => exact h.endLoop

/-- A task can wait outside of a section, if its request says so. Only the line may change. -/
lemma Disciplined.wait {w : Wait} {line : List TaskId}
    (h : Disciplined (c.timeline past) (c.drop t)) (hlt : t < c.nextTask)
    (hw : w.isInSection = false)
    (hs : role.Serves (requestOf past t) ∧ w.Serves (requestOf past t))
    (hunheld : c.guard = none → line = [])
    (hline : ∀ u ∈ line, c.guard ≠ some u ∧
      ∃ role', (c.suspend t role w).tasks[u]? = some ⟨role', .inLine⟩)
    (hnodup : line.Nodup) :
    Disciplined (c.timeline past) ({ c with line }.suspend t role w) where
  fresh u task hu := by
    rcases suspend_tasks_eq_some hu with ⟨rfl, _⟩ | ⟨hut, hu⟩
    · exact hlt
    · exact h.fresh u task ((drop_tasks_of_ne hut).trans hu)
  numbered := h.numbered
  serves u task hu := by
    rcases suspend_tasks_eq_some hu with ⟨rfl, rfl⟩ | ⟨hut, hu⟩
    · rw [requestOf_timeline]
      exact hs
    · exact h.serves u task ((drop_tasks_of_ne hut).trans hu)
  inSection u task hu hin := by
    rcases suspend_tasks_eq_some hu with ⟨_, rfl⟩ | ⟨hut, hu⟩
    · rw [hw] at hin
      cases hin
    · exact h.inSection u task ((drop_tasks_of_ne hut).trans hu) hin
  holder u hu := by
    obtain ⟨task, htask, hrest⟩ := h.holder u hu
    exact ⟨task, suspend_tasks_of_drop htask, hrest⟩
  ended := h.ended
  unheld := hunheld
  line := hline
  nodup := hnodup

/-- A task can wait for what has nothing to do with the guard. -/
lemma Disciplined.suspend {w : Wait} (h : Disciplined (c.timeline past) (c.drop t))
    (hlt : t < c.nextTask) (hw : w.isFree = true)
    (hr : role.Serves (requestOf past t)) (hs : w.Serves (requestOf past t)) :
    Disciplined ((c.suspend t role w).timeline past) (c.suspend t role w) := by
  refine h.wait hlt (Wait.isInSection_of_isFree hw) ⟨hr, hs⟩ h.unheld (fun u hu => ?_) h.nodup
  obtain ⟨hguard, role', htask⟩ := h.line u hu
  exact ⟨hguard, role', suspend_tasks_of_drop htask⟩

/-! ## A task at work with the guard -/

/-- Where the event found the guard free and it still is, nothing has been called since. -/
lemma Disciplined.exists_tenures_of_free (h : Disciplined log c) (hg : c.guard = none)
    (hfound : lastFound? log = some none) : ∃ earlier,
      (∀ after, tenures log after = ⟨after, []⟩ :: earlier) ∧
        ∀ x ∈ earlier, x.InOrder log c.nextTask := by
  obtain ⟨calls, earlier, htenures⟩ := exists_tenures_of_lastFound_free hfound
  have hended : ∀ x ∈ (⟨none, calls⟩ : Tenure) :: earlier, x.InOrder log c.nextTask := by
    rw [← htenures none, ← endedTenures_none, ← hg]
    exact h.ended
  -- a tenure without a holder has no calls
  obtain rfl : calls = [] := by
    rcases hended ⟨none, calls⟩ List.mem_cons_self with hnone | ⟨_, _, hholder, _⟩
    · exact hnone
    · cases hholder
  exact ⟨earlier, htenures, fun x hx => hended x (List.mem_cons_of_mem _ hx)⟩

/-- Where nobody has the guard since the event, a task can take it. Its tenure begins with the
event. -/
lemma Disciplined.hold (h : Disciplined (c.timeline past) (c.drop t)) (hlt : t < c.nextTask)
    (hg : c.guard = none) (hfound : lastFound? past = some c.guard) :
    Holding ((c.hold t).timeline past) (c.hold t) t [] := by
  rw [hg, ← lastFound?_timeline c past] at hfound
  obtain ⟨earlier, htenures, hended⟩ := h.exists_tenures_of_free hg hfound
  obtain rfl := endedTenures_of_eq (htenures (some t))
  -- the order says nothing of the task itself, which may wait for anything
  have hother : ∀ (u : TaskId) task, u ≠ t → c.tasks[u]? = some task →
      (c.drop t).tasks[u]? = some task := by
    intro u task hut hu
    rwa [drop_tasks_of_ne hut]
  exact {
    fresh := fun u task hu => by
      by_cases hut : u = t
      · exact hut ▸ hlt
      · exact h.fresh u task (hother u task hut hu)
    numbered := h.numbered
    serves := fun u task hut hu => h.serves u task (hother u task hut hu)
    lt := hlt
    guard := rfl
    others := fun u task hut hu => by
      -- another task in a section would have the guard
      cases hin : task.wait.isInSection with
      | false => rfl
      | true =>
        have hgu : c.guard = some u := h.inSection u task (hother u task hut hu) hin
        rw [hg] at hgu
        cases hgu
    line := fun u hu => by
      have hnil : c.line = [] := h.unheld hg
      rw [Controller.hold, hnil] at hu
      cases hu
    nodup := h.nodup
    heldBy := fun found e he => by cases he
    found := .inr ⟨hfound, fun _ _ => List.not_mem_nil⟩
    tenure := htenures (some t)
    ended := hended }

/-- A call goes to the end of the section. -/
lemma Holding.sent {slot : Nat} {r : SimulatorRequest}
    (h : Holding (c.timeline past) c t current)
    (hr : (LogEntry.occurrence (.sent t slot r)).isCall = true) :
    Holding ((c.note (.sent t slot r)).timeline past) (c.note (.sent t slot r)) t
      (current ++ [.occurrence (.sent t slot r)]) := by
  have htenure : tenures ((c.note (.sent t slot r)).timeline past) (some t) =
      ⟨some t, current ++ [.occurrence (.sent t slot r)]⟩ ::
        endedTenures (c.timeline past) (some t) := by
    show record _ (tenures (c.timeline past) (some t)) = _
    rw [h.tenure, record_cons, filter_isCall hr]
  have hended := endedTenures_of_eq htenure
  exact {
    fresh := h.fresh
    numbered := h.numbered
    serves := h.serves
    lt := h.lt
    guard := h.guard
    others := h.others
    line := h.line
    nodup := h.nodup
    heldBy := fun found e he => by
      rcases List.mem_append.mp he with he | he
      · exact h.heldBy found e he
      · simp at he
    found := by
      refine h.found.imp id fun hfree => ⟨hfree.1, fun found e he => ?_⟩
      rcases List.mem_append.mp he with he | he
      · exact hfree.2 found e he
      · simp at he
    tenure := hended ▸ htenure
    ended := fun x hx => by
      rw [hended] at hx
      exact (h.ended x hx).mono (Nat.le_refl _) fun _ _ => rfl }

/-- The order is there again when the task waits in the middle of its section. -/
lemma Holding.suspend {w : Wait} (h : Holding (c.timeline past) c t current)
    (hr : role.Serves (requestOf past t)) (hw : Unfinished (requestOf past t) t w current) :
    Disciplined ((c.suspend t role w).timeline past) (c.suspend t role w) := by
  rw [← requestOf_timeline c past] at hr hw
  exact {
    fresh := fun u task hu => by
      rcases suspend_tasks_eq_some hu with ⟨rfl, _⟩ | ⟨_, hu⟩
      · exact h.lt
      · exact h.fresh u task hu
    numbered := h.numbered
    serves := fun u task hu => by
      rcases suspend_tasks_eq_some hu with ⟨rfl, rfl⟩ | ⟨hut, hu⟩
      · exact ⟨hr, hw.serves⟩
      · exact h.serves u task hut hu
    inSection := fun u task hu hin => by
      rcases suspend_tasks_eq_some hu with ⟨rfl, _⟩ | ⟨hut, hu⟩
      · exact h.guard
      · rw [h.others u task hut hu] at hin
        cases hin
    holder := fun u hu => by
      have hut : u = t := Option.some.inj (hu.symm.trans h.guard)
      subst hut
      have hsofar := callsSoFar_of_eq h.tenure
      exact ⟨_, suspend_tasks_self .., hsofar ▸ hw, hsofar ▸ h.heldBy⟩
    ended := fun x hx => by
      have hguard : (c.suspend t role w).guard = some t := h.guard
      rw [hguard] at hx
      exact h.ended x hx
    unheld := fun hu => by
      have hnone : c.guard = none := hu
      rw [h.guard] at hnone
      cases hnone
    line := fun u hu => by
      obtain ⟨hut, role, htask⟩ := h.line u hu
      refine ⟨?_, role, (suspend_tasks_of_ne hut).trans htask⟩
      -- the guard is that of the task, which is not in line
      intro hg
      exact hut (Option.some.inj (hg.symm.trans h.guard))
    nodup := h.nodup }

/-- The tenure of the task is in order with those before it, once the section has come to its end or
nothing was called. -/
lemma Holding.tenures_inOrder (h : Holding log c t current)
    (hc : current = [] ∨ Section (requestOf log t) t current) :
    ∀ x ∈ tenures log (some t), x.InOrder log c.nextTask := by
  intro x hx
  rw [h.tenure] at hx
  rcases List.mem_cons.mp hx with rfl | hx
  · exact hc.imp id fun hsection => ⟨t, h.lt, rfl, h.heldBy, hsection⟩
  · exact h.ended x hx

/-- Where the event found the guard with the task, the tenure of the task has ended once the guard
is elsewhere. -/
lemma Holding.moved_of_found_held (h : Holding log c t current)
    (hfound : lastFound? log = some (some t))
    (hc : current = [] ∨ Section (requestOf log t) t current) (after : Option TaskId)
    (hafter : after ≠ some t) :
    (∀ x ∈ endedTenures log after, x.InOrder log c.nextTask) ∧
      ∀ u, after = some u → callsSoFar log u = [] := by
  have htenures : tenures log after = tenures log (some t) := by
    rw [tenures_of_lastFound_held hfound, ← tenures_of_lastFound_held hfound (some t)]
  cases after with
  | none =>
    rw [endedTenures_none, htenures]
    exact ⟨h.tenures_inOrder hc, nofun⟩
  | some u =>
    obtain ⟨hsofar, hended⟩ := callsSoFar_of_ne (htenures.trans h.tenure) hafter.symm
    rw [hended, ← h.tenure]
    refine ⟨h.tenures_inOrder hc, ?_⟩
    rintro _ ⟨⟩
    exact hsofar

/-- Where the event found the guard free, nothing has been called since if the guard is elsewhere
again. -/
lemma Holding.moved_of_found_free (h : Holding log c t current)
    (hfound : lastFound? log = some none) (hnone : ∀ found e, .event found e ∉ current)
    (hc : current = [] ∨ Section (requestOf log t) t current) (after : Option TaskId) :
    (∀ x ∈ endedTenures log after, x.InOrder log c.nextTask) ∧
      ∀ u, after = some u → callsSoFar log u = [] := by
  -- without an answer there is no section yet
  obtain rfl : current = [] := by
    rcases hc with rfl | hsection
    · rfl
    · obtain ⟨found, e, he⟩ := hsection.exists_answer
      exact absurd he (hnone found e)
  obtain ⟨calls, earlier, htenures⟩ := exists_tenures_of_lastFound_free hfound
  have hsame : (⟨some t, calls⟩ : Tenure) :: earlier = ⟨some t, []⟩ :: endedTenures log (some t) :=
    (htenures (some t)).symm.trans h.tenure
  obtain ⟨rfl, rfl⟩ : calls = [] ∧ earlier = endedTenures log (some t) := by
    simpa using hsame
  cases after with
  | none =>
    rw [endedTenures_none, htenures]
    refine ⟨fun x hx => ?_, nofun⟩
    rcases List.mem_cons.mp hx with rfl | hx
    · exact .inl rfl
    · exact h.ended x hx
  | some u =>
    rw [endedTenures_of_eq (htenures (some u))]
    refine ⟨h.ended, ?_⟩
    rintro _ ⟨⟩
    exact callsSoFar_of_eq (htenures (some u))

/-- Where the task does not have the guard any more, all tenures that have ended are in order, and
who has the guard now has called nothing. -/
lemma Holding.moved (h : Holding log c t current)
    (hc : current = [] ∨ Section (requestOf log t) t current) (after : Option TaskId)
    (hafter : after ≠ some t) :
    (∀ x ∈ endedTenures log after, x.InOrder log c.nextTask) ∧
      ∀ u, after = some u → callsSoFar log u = [] := by
  rcases h.found with hheld | ⟨hfree, hnone⟩
  · exact h.moved_of_found_held hheld hc after hafter
  · exact h.moved_of_found_free hfree hnone hc after

/-- What holds of the other tasks while a task has the guard. -/
lemma Holding.other (h : Holding log c t current) {u : TaskId} {task : Task}
    (hu : (c.drop t).tasks[u]? = some task) :
    u < c.nextTask ∧ (task.role.Serves (requestOf log u) ∧ task.wait.Serves (requestOf log u)) ∧
      task.wait.isInSection = false := by
  obtain ⟨hut, hu⟩ := drop_tasks_eq_some hu
  exact ⟨h.fresh u task hu, h.serves u task hut hu, h.others u task hut hu⟩

/-- Where nobody is in line the guard is free again, and in order. -/
lemma Holding.free (h : Holding log c t current)
    (hc : current = [] ∨ Section (requestOf log t) t current) (hline : c.line = []) :
    Disciplined log ({ c with guard := none }.drop t) where
  fresh _ _ hu := (h.other hu).1
  numbered := h.numbered
  serves _ _ hu := (h.other hu).2.1
  inSection u task hu hin := by
    rw [(h.other hu).2.2] at hin
    cases hin
  holder u hu := by cases hu
  ended := (h.moved hc none nofun).1
  unheld _ := hline
  line u hu := by
    have hmem : u ∈ c.line := hu
    rw [hline] at hmem
    cases hmem
  nodup := h.nodup

/-- The first loop in line gets the guard, with nothing of its section yet. -/
lemma Holding.handOn (h : Holding log c t current)
    (hc : current = [] ∨ Section (requestOf log t) t current) {v : TaskId} {rest : List TaskId}
    (hline : c.line = v :: rest) :
    Disciplined log ({ c with guard := some v, line := rest }.drop t) := by
  have hnodup := h.nodup
  rw [hline, List.nodup_cons] at hnodup
  obtain ⟨hvt, vrole, hv⟩ := h.line v (hline ▸ List.mem_cons_self)
  have hmoved := h.moved hc (some v) fun hsame => hvt (Option.some.inj hsame)
  exact {
    fresh := fun _ _ hu => (h.other hu).1
    numbered := h.numbered
    serves := fun _ _ hu => (h.other hu).2.1
    inSection := fun u task hu hin => by
      rw [(h.other hu).2.2] at hin
      cases hin
    holder := fun u hu => by
      obtain rfl : v = u := Option.some.inj hu
      refine ⟨_, (drop_tasks_of_ne hvt).trans hv, ?_⟩
      rw [hmoved.2 v rfl]
      exact ⟨.inLine (h.serves v _ hvt hv).2, fun _ _ he => by cases he⟩
    ended := hmoved.1
    unheld := fun hu => by cases hu
    line := fun u hu => by
      obtain ⟨hut, urole, hu'⟩ := h.line u (hline ▸ List.mem_cons_of_mem v hu)
      refine ⟨?_, urole, (drop_tasks_of_ne hut).trans hu'⟩
      -- nobody stands in line twice, so the one who is served is not behind itself
      intro huv
      rw [Option.some.inj huv] at hnodup
      exact hnodup.1 hu
    nodup := hnodup.2 }

/-- The order is there again, apart from the task, when it gives the guard back at the end of its
section. -/
lemma Holding.release (h : Holding (c.timeline past) c t current)
    (hc : current = [] ∨ Section (requestOf past t) t current) :
    Disciplined (c.release.timeline past) (c.release.drop t) := by
  rw [← requestOf_timeline c past] at hc
  unfold Controller.release
  split
  · next hline => exact h.free hc hline
  · next v rest hline =>
    exact (h.handOn hc hline).congr (fun _ => rfl) rfl rfl (Nat.le_refl _)
      (ledger_of_not_isCall rfl)

/-- The order is there again when the task ends with its section. -/
lemma Holding.conclude {result : Except Error Reply} (h : Holding (c.timeline past) c t current)
    (hc : current = [] ∨ Section (requestOf past t) t current) :
    Disciplined ((c.conclude t role result).timeline past) (c.conclude t role result) := by
  cases role with
  | request => exact (h.release hc).answer
  | loop asked => exact (h.release hc).endLoop

/-- A task calls the simulator and waits for the answer. -/
lemma Holding.call {r : SimulatorRequest} {w : Wait} (h : Holding (c.timeline past) c t current)
    (hcall : (LogEntry.asked t r).isCall = true) (hr : role.Serves (requestOf past t))
    (hw : Unfinished (requestOf past t) t w (current ++ [.asked t r])) :
    Disciplined ((c.call t role r w).timeline past) (c.call t role r w) :=
  (h.sent hcall).suspend hr hw

end

end Controller
end SicDebugger
