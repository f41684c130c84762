import SicDebugger.Proofs.Run

/-!
# Scripts

A script says what the simulator answers to one step after another. With nothing else asked it
drives a continuous run as well as single steps: the answers arrive one by one, and a loop goes on
whenever its delay is over.
-/

namespace SicDebugger

/-! ## Scripts of answers -/

/-- What the simulator answers in one step: to the step itself, to the reads of the refresh in the
order in which their answers arrive, and to the begin of a reset. -/
structure StepAnswers where
  step : Except Error RegisterSnapshot
  /-- The answers to so many reads, each with the slot of its read. -/
  reads : Nat → List (Nat × Except Error (List UInt8))
  began : Except Error Unit
  /-- Every read is answered once, in any order. -/
  reads_slots : ∀ n, ((reads n).map Prod.fst).Perm (List.range n)

/-- The answers where those to the reads arrive in the order of their slots. -/
def StepAnswers.inOrder (step : Except Error RegisterSnapshot)
    (read : Nat → Except Error (List UInt8)) (began : Except Error Unit) : StepAnswers where
  step := step
  reads n := (List.range n).map fun slot => (slot, read slot)
  began := began
  reads_slots n := by simp [Function.comp_def]

namespace Controller

/-- The controller after an event, if the event can happen. -/
def advance? (c : Controller) (e : Event) : Option Controller := (c.happen? e).map Prod.fst

/-- The controller after reads of a task have been answered in the order given. -/
def answerReads? (c : Controller) (t : TaskId) (reads : List (Nat × Except Error (List UInt8))) :
    Option Controller :=
  reads.foldlM (fun c (slot, result) => c.advance? (.read t slot result)) c

/-- The controller after everything has been answered that a task asks in a step. -/
def answerStep? (c : Controller) (t : TaskId) (a : StepAnswers) : Option Controller := do
  let d ← c.advance? (.stepped t a.step)
  match d.tasks[t]? with
  | some ⟨_, .refresh pending _⟩ => d.answerReads? t (a.reads pending.length)
  | some ⟨_, .reset _⟩ => d.advance? (.began t a.began)
  | _ => none

/-- The controller after the request of a single step has come to its end. -/
def singleStep? (c : Controller) (a : StepAnswers) : Option Controller := do
  let d ← c.advance? (.request .step)
  d.answerStep? c.nextTask a

/-- The controller after single steps, each requested when the one before has come to its end. -/
def singleSteps? (c : Controller) (script : List StepAnswers) : Option Controller :=
  script.foldlM singleStep? c

/-- The loop that is on, if there is one. -/
def loop? (c : Controller) : Option TaskId := c.handle.filter c.tasks.contains

/-- The controller after a turn of a loop, from the end of its delay to the next delay or to its
end. -/
def loopTurn? (c : Controller) (l : TaskId) (a : StepAnswers) : Option Controller := do
  let d ← c.advance? (.resumed l)
  d.answerStep? l a

/-- The number of turns that the loop takes before it has ended or the script has, and the
controller after them. -/
def loopTurns? (c : Controller) : List StepAnswers → Option (Nat × Controller)
  | [] => some (0, c)
  | a :: rest =>
    match c.loop? with
    | none => some (0, c)
    | some l => do
      let d ← c.loopTurn? l a
      let (k, e) ← d.loopTurns? rest
      return (k + 1, e)

/-- The number of turns that a continuous run takes before it has ended by itself or the script has,
and the controller after them. -/
def continuousRun? (c : Controller) (script : List StepAnswers) : Option (Nat × Controller) := do
  let started ← c.advance? (.request .run)
  let l ← started.loop?
  let asleep ← started.advance? (.resumed l)
  asleep.loopTurns? script

/-! ## Scripts drive runs -/

/-- A run leads from one controller to another. -/
def Reaches (start c : Controller) : Prop := ∃ log, Run start log c

section

variable {start c d : Controller} {t l : TaskId}

lemma advance?_eq_some {e : Event} (h : { c with history := [] }.perform? e = some d) :
    c.advance? e = some { d with history := d.history ++ c.history } := by
  rw [advance?, happen?, h]
  rfl

lemma Reaches.advance {e : Event} (h : Reaches start c) (hd : c.advance? e = some d) :
    Reaches start d := by
  obtain ⟨log, hrun⟩ := h
  obtain ⟨⟨_, news⟩, hhappen, rfl⟩ := Option.map_eq_some_iff.mp hd
  exact ⟨_, .next hrun hhappen⟩

lemma Reaches.answerReads {reads : List (Nat × Except Error (List UInt8))} (h : Reaches start c)
    (hd : c.answerReads? t reads = some d) : Reaches start d := by
  induction reads generalizing c with
  | nil =>
    cases hd
    exact h
  | cons first rest ih =>
    obtain ⟨c', hc, hrest⟩ := Option.bind_eq_some_iff.mp hd
    exact ih (h.advance hc) hrest

lemma Reaches.answerStep {a : StepAnswers} (h : Reaches start c)
    (hd : c.answerStep? t a = some d) : Reaches start d := by
  obtain ⟨c', hc, hrest⟩ := Option.bind_eq_some_iff.mp hd
  have hc' := h.advance hc
  split at hrest
  · exact hc'.answerReads hrest
  · exact hc'.advance hrest
  · cases hrest

/-- Single steps that are fed from a script are a run. -/
theorem singleSteps?_reaches {script : List StepAnswers} (hd : c.singleSteps? script = some d) :
    Reaches c d := by
  suffices h : ∀ b, Reaches c b → b.singleSteps? script = some d → Reaches c d by
    exact h c ⟨_, .start⟩ hd
  clear hd
  induction script with
  | nil =>
    intro b hb hd
    cases hd
    exact hb
  | cons a rest ih =>
    intro b hb hd
    obtain ⟨b', hstep, hrest⟩ := Option.bind_eq_some_iff.mp hd
    simp only [singleStep?, Option.bind_eq_bind, Option.bind_eq_some_iff] at hstep
    obtain ⟨asked, hasked, hanswered⟩ := hstep
    exact ih b' ((hb.advance hasked).answerStep hanswered) hrest

lemma Reaches.loopTurns {script : List StepAnswers} {k : Nat} (h : Reaches start c)
    (hd : c.loopTurns? script = some (k, d)) : Reaches start d := by
  induction script generalizing c k with
  | nil =>
    cases hd
    exact h
  | cons a rest ih =>
    rw [loopTurns?] at hd
    split at hd
    · cases hd
      exact h
    · obtain ⟨c', hturn, hrest⟩ := Option.bind_eq_some_iff.mp hd
      obtain ⟨⟨k', d'⟩, hturns, heq⟩ := Option.bind_eq_some_iff.mp hrest
      obtain ⟨woken, hwoken, hanswered⟩ := Option.bind_eq_some_iff.mp hturn
      cases heq
      exact ih ((h.advance hwoken).answerStep hanswered) hturns

/-- A continuous run that is fed from a script is a run. -/
theorem continuousRun?_reaches {script : List StepAnswers} {k : Nat}
    (hd : c.continuousRun? script = some (k, d)) : Reaches c d := by
  simp only [continuousRun?, Option.bind_eq_bind, Option.bind_eq_some_iff] at hd
  obtain ⟨started, hstarted, l, -, asleep, hasleep, hturns⟩ := hd
  have hstart : Reaches c c := ⟨_, .start⟩
  exact ((hstart.advance hstarted).advance hasleep).loopTurns hturns

end

end Controller
end SicDebugger
