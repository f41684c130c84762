import SicDebugger.Controller.Event
import Mathlib.Tactic.Lemma

/-!
# Runs of the controller

A run is any sequence of events that can happen one after the other: requests of any views, answers
of the simulator with any content after any delay, and tasks that go on. Its log says, the latest
first, which events there were and what came of them. A statement about every run is therefore a
statement about every interleaving of the tasks.
-/

namespace SicDebugger

/-- An entry in the log of a run: an event with the controller that it finds, or something that
comes of it. -/
inductive LogEntry where
  | event (found : Controller) (e : Event)
  | occurrence (o : Occurrence)

namespace Controller

/-- The log that has what happened in the controller on top of a log of the past. -/
def timeline (c : Controller) (past : List LogEntry) : List LogEntry :=
  c.history.map .occurrence ++ past

/-- The runs from a controller, with the log and the controller at the end. -/
inductive Run (start : Controller) : List LogEntry → Controller → Prop where
  | start : Run start [] start
  | next {log : List LogEntry} {c d : Controller} {e : Event} {news : List Occurrence} :
      Run start log c → c.happen? e = some (d, news) →
      Run start (news.reverse.map .occurrence ++ .event c e :: log) d

/-! ## Events that can happen -/

section

variable {c d : Controller} {t : TaskId}

lemma perform?_resumed (h : c.perform? (.resumed t) = some d) :
    ∃ task, c.tasks[t]? = some task ∧ c.resume? t task = some d :=
  Option.bind_eq_some_iff.mp h

lemma perform?_began {result : Except Error Unit} (h : c.perform? (.began t result) = some d) :
    (∃ role goal, c.tasks[t]? = some ⟨role, .begin goal⟩ ∧ d = c.afterBegin t goal result) ∨
      ∃ role outcome, c.tasks[t]? = some ⟨role, .reset outcome⟩ ∧
        d = c.afterReset t role outcome := by
  simp only [perform?] at h
  split at h
  · next role goal ht =>
    cases h
    exact .inl ⟨role, goal, ht, rfl⟩
  · next role outcome ht =>
    cases h
    exact .inr ⟨role, outcome, ht, rfl⟩
  · cases h

lemma perform?_loaded {result : Except Error LoadOutcome}
    (h : c.perform? (.loaded t result) = some d) :
    ∃ role goal, c.tasks[t]? = some ⟨role, .load goal⟩ ∧ d = c.afterLoad t goal result := by
  simp only [perform?] at h
  split at h
  · next role goal ht =>
    cases h
    exact ⟨role, goal, ht, rfl⟩
  · cases h

lemma perform?_stepped {result : Except Error RegisterSnapshot}
    (h : c.perform? (.stepped t result) = some d) :
    ∃ role, c.tasks[t]? = some ⟨role, .step⟩ ∧ d = c.afterStep t role result := by
  simp only [perform?] at h
  split at h
  · next role ht =>
    cases h
    exact ⟨role, ht, rfl⟩
  · cases h

lemma perform?_read {slot : Nat} {result : Except Error (List UInt8)}
    (h : c.perform? (.read t slot result) = some d) :
    (∃ role pending next, c.tasks[t]? = some ⟨role, .refresh pending next⟩ ∧
        slot ∈ pending.map (·.slot) ∧ d = c.afterRead t role pending next slot result) ∨
      ∃ role range, c.tasks[t]? = some ⟨role, .windowRead range⟩ ∧ slot = 0 ∧
        d = c.afterWindow t range result := by
  simp only [perform?] at h
  split at h
  · next role pending next ht =>
    split at h
    · next hs =>
      cases h
      exact .inl ⟨role, pending, next, ht, by simpa using hs, rfl⟩
    · cases h
  · next role range ht =>
    split at h
    · next hs =>
      cases h
      exact .inr ⟨role, range, ht, hs, rfl⟩
    · cases h
  · cases h

lemma perform?_checked {result : Except Error (List CheckedFile)}
    (h : c.perform? (.checked t result) = some d) :
    ∃ role, c.tasks[t]? = some ⟨role, .check⟩ ∧ d = c.afterCheck t result := by
  simp only [perform?] at h
  split at h
  · next role ht =>
    cases h
    exact ⟨role, ht, rfl⟩
  · cases h

/-- A task that goes on by itself is a loop between its waits, or a request whose loop has ended. -/
lemma resume?_eq_some {task : Task} (h : c.resume? t task = some d) :
    (∃ asked, task = ⟨.loop asked, .turn⟩ ∧ d = c.beginTurn t asked) ∨
      (∃ asked, task = ⟨.loop asked, .asleep⟩ ∧ d = c.afterDelay t asked) ∨
      (∃ asked, task = ⟨.loop asked, .inLine⟩ ∧ c.guard = some t ∧ d = c.withGuard t asked) ∨
      ∃ role loop halt, task = ⟨role, .loopEnd loop halt⟩ ∧ c.tasks.contains loop = false ∧
        d = c.afterLoop t halt := by
  obtain ⟨role, wait⟩ := task
  unfold resume? at h
  split at h
  · next asked hwait hrole =>
    obtain ⟨rfl, rfl⟩ : wait = .turn ∧ role = .loop asked := ⟨hwait, hrole⟩
    cases h
    exact .inl ⟨asked, rfl, rfl⟩
  · next asked hwait hrole =>
    obtain ⟨rfl, rfl⟩ : wait = .asleep ∧ role = .loop asked := ⟨hwait, hrole⟩
    cases h
    exact .inr (.inl ⟨asked, rfl, rfl⟩)
  · next asked hwait hrole =>
    obtain ⟨rfl, rfl⟩ : wait = .inLine ∧ role = .loop asked := ⟨hwait, hrole⟩
    split at h
    · next hg =>
      cases h
      exact .inr (.inr (.inl ⟨asked, rfl, hg, rfl⟩))
    · cases h
  · next loop halt hwait =>
    obtain rfl : wait = .loopEnd loop halt := hwait
    split at h
    · cases h
    · next hgone =>
      cases h
      exact .inr (.inr (.inr ⟨role, loop, halt, rfl, Bool.eq_false_iff.mpr hgone, rfl⟩))
  · cases h

end

/-! ## Runs -/

/-- An event happens as it does where nothing has happened before. -/
lemma happen?_eq_some {c d : Controller} {e : Event} {news : List Occurrence}
    (h : c.happen? e = some (d, news)) :
    ∃ d', { c with history := [] }.perform? e = some d' ∧
      d = { d' with history := d'.history ++ c.history } ∧ news = d'.history.reverse := by
  unfold happen? at h
  split at h
  · next d' hd =>
    cases h
    exact ⟨d', hd, rfl, rfl⟩
  · cases h

lemma happen?_of_perform {c d : Controller} {e : Event}
    (hd : { c with history := [] }.perform? e = some d) :
    c.happen? e = some ({ d with history := d.history ++ c.history }, d.history.reverse) := by
  rw [happen?, hd]

/-- An event that can happen is a run by itself. -/
lemma Run.single {c d : Controller} {e : Event}
    (hd : { c with history := [] }.perform? e = some d) :
    Run c (d.timeline [.event c e]) { d with history := d.history ++ c.history } := by
  have hrun := Run.next .start (happen?_of_perform hd)
  rwa [List.reverse_reverse] at hrun

/-- What holds at the start of a run and is kept by every event holds at its end. What happened
before an event plays no part in it. -/
theorem Run.invariant {start : Controller} {P : List LogEntry → Controller → Prop}
    (forget : ∀ {log c} h, P log c → P log { c with history := h })
    (atStart : P [] start)
    (step : ∀ {log c e d} found, c = { found with history := [] } → P log c →
      c.perform? e = some d → P (d.timeline (.event found e :: log)) d)
    {log : List LogEntry} {c : Controller} (h : Run start log c) : P log c := by
  induction h with
  | start => exact atStart
  | next _ hd ih =>
    obtain ⟨d', hd', rfl, rfl⟩ := happen?_eq_some hd
    rw [List.reverse_reverse]
    exact forget _ (step _ rfl (forget [] ih) hd')

/-- A run goes on where another one ends. -/
theorem Run.append {start c d : Controller} {log more : List LogEntry} (h : Run start log c)
    (hm : Run c more d) : Run start (more ++ log) d := by
  induction hm with
  | start => exact h
  | next _ hd ih =>
    rw [List.append_assoc, List.cons_append]
    exact .next ih hd

/-! ## Replaying events -/

/-- The log and the controller after events, one after the other, if all of them can happen. -/
def replay (start : Controller) (events : List Event) : Option (List LogEntry × Controller) :=
  events.foldlM (fun (log, c) e => (c.happen? e).map fun (d, news) =>
    (news.reverse.map .occurrence ++ .event c e :: log, d)) ([], start)

/-- What can be replayed is a run. -/
theorem Run.of_replay {start c : Controller} {events : List Event} {log : List LogEntry}
    (h : replay start events = some (log, c)) : Run start log c := by
  -- the induction is over the events from any point of the run on
  suffices hgoes : ∀ past d, Run start past d →
      events.foldlM (fun (log, c) e => (c.happen? e).map fun (d, news) =>
        (news.reverse.map .occurrence ++ .event c e :: log, d)) (past, d) = some (log, c) →
      Run start log c by
    exact hgoes [] start .start h
  clear h
  induction events with
  | nil =>
    intro past d hd h
    cases h
    exact hd
  | cons e es ih =>
    intro past d hd h
    obtain ⟨⟨past', d'⟩, hone, hrest⟩ := Option.bind_eq_some_iff.mp h
    obtain ⟨⟨_, news⟩, hhappen, heq⟩ := Option.map_eq_some_iff.mp hone
    cases heq
    exact ih _ _ (.next hd hhappen) hrest

/-- Events that can be replayed end with the log and the controller that the replay computes. -/
lemma exists_replay_eq (start : Controller) (events : List Event)
    (h : (replay start events).isSome = true) : ∃ log c,
      replay start events = some (log, c) ∧ (log, c) = (replay start events).get h :=
  ⟨_, _, (Option.some_get h).symm, rfl⟩

/-- The events in the log of a replay are those that were replayed. -/
lemma mem_of_replay {start c : Controller} {events : List Event} {log : List LogEntry}
    (h : replay start events = some (log, c)) {found : Controller} {e : Event}
    (he : .event found e ∈ log) : e ∈ events := by
  suffices hgoes : ∀ past d,
      events.foldlM (fun (log, c) e => (c.happen? e).map fun (d, news) =>
        (news.reverse.map .occurrence ++ .event c e :: log, d)) (past, d) = some (log, c) →
      .event found e ∈ past ∨ e ∈ events by
    exact (hgoes [] start h).resolve_left List.not_mem_nil
  clear h
  induction events with
  | nil =>
    intro past d h
    cases h
    exact .inl he
  | cons first rest ih =>
    intro past d h
    obtain ⟨⟨past', d'⟩, hone, hrest⟩ := Option.bind_eq_some_iff.mp h
    obtain ⟨⟨_, news⟩, -, heq⟩ := Option.map_eq_some_iff.mp hone
    cases heq
    rcases ih _ _ hrest with hpast | hrest
    · rcases List.mem_append.mp hpast with hnews | hpast
      · obtain ⟨_, _, heq⟩ := List.mem_map.mp hnews
        cases heq
      · rcases List.mem_cons.mp hpast with heq | hpast
        · cases heq
          exact .inr List.mem_cons_self
        · exact .inl hpast
    · exact .inr (List.mem_cons_of_mem _ hrest)

/-- The settings of a project with one source, for short runs that are replayed. -/
def oneSource : ControllerSettings where
  mode := .sic
  request := { filePaths := ["main.asm"], outputDir := "out" }
  delay := ⟨.ofNat 250, 250000000, by decide +kernel⟩
  projectRoot := none
  window := ⟨0, 15, by decide⟩

end Controller
end SicDebugger
