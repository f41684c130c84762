import SicDebugger.Proofs.Discipline
import SicDebugger.Proofs.Halt
import SicDebugger.Proofs.Outcomes

/-!
# Refused requests

A request that is refused has done nothing, in whichever event the refusal comes and whatever else
was under way: the session, the execution state, the delay and every loop are as they were, no view
was told anything, and the simulator was asked nothing but what a syntax check is there to ask. The
refusals are those of the controller; the simulator answers with errors of its own.
-/

namespace SicDebugger

/-- The errors that come of what arrives from the simulator. -/
def Error.IsRemote : Error → Prop
  | remoteUnavailable _ => True
  | remote _ => True
  | transport _ => True
  | _ => False

namespace Arrival

variable {err : Error}

lemma isRemote_of_reply {α : Type} {endpoint : String} {read : Json → Option α} {a : Arrival}
    (h : a.reply endpoint read = .error err) : err.IsRemote := by
  unfold reply at h
  split at h
  · cases h
    trivial
  · split at h
    · split at h
      · cases h
      · cases h
        trivial
    · cases h
      trivial

lemma isRemote_of_began {a : Arrival} (h : a.began = .error err) : err.IsRemote := by
  unfold began at h
  split at h
  · cases h
    trivial
  · split at h
    · cases h
    · cases h
      trivial

lemma isRemote_of_outcome {r : LoadReply} (h : r.outcome = .error err) : err.IsRemote := by
  unfold LoadReply.outcome at h
  split at h
  · split at h
    · cases h
    · cases h
      trivial
  · split at h
    · cases h
    · cases h
      trivial

lemma isRemote_of_snapshot {r : StepReply} (h : r.snapshot = .error err) : err.IsRemote := by
  unfold StepReply.snapshot at h
  split at h
  · split at h
    · cases h
    · cases h
      trivial
  · cases h
    trivial

lemma isRemote_of_bind {α β : Type} {x : Except Error α} {f : α → Except Error β}
    (hx : ∀ err, x = .error err → err.IsRemote)
    (hf : ∀ a err, f a = .error err → err.IsRemote) (h : x.bind f = .error err) :
    err.IsRemote := by
  cases x with
  | error first =>
    cases h
    exact hx _ rfl
  | ok a => exact hf a err h

end Arrival

/-- What the simulator answers is what the client makes of what arrives. -/
def Event.IsGenuine : Event → Prop
  | request _ => True
  | resumed _ => True
  | e => ∃ t slot r a, e = ofArrival t slot r a

lemma Event.IsGenuine.failsWith {e : Event} (h : e.IsGenuine) : e.FailsWith Error.IsRemote := by
  cases e with
  | request r => trivial
  | resumed t => trivial
  | began u result =>
    obtain ⟨t, slot, r, a, he⟩ := h
    cases r with
    | begin mode =>
      cases he
      cases hr : a.began with
      | error err => exact Arrival.isRemote_of_began hr
      | ok => trivial
    | load | step | memory | check => cases he
  | loaded u result =>
    obtain ⟨t, slot, r, a, he⟩ := h
    cases r with
    | load request =>
      cases he
      cases hr : a.loaded with
      | error err =>
        exact Arrival.isRemote_of_bind (fun _ => Arrival.isRemote_of_reply)
          (fun _ _ => Arrival.isRemote_of_outcome) hr
      | ok => trivial
    | begin | step | memory | check => cases he
  | stepped u result =>
    obtain ⟨t, slot, r, a, he⟩ := h
    cases r with
    | step =>
      cases he
      cases hr : a.stepped with
      | error err =>
        exact Arrival.isRemote_of_bind (fun _ => Arrival.isRemote_of_reply)
          (fun _ _ => Arrival.isRemote_of_snapshot) hr
      | ok => trivial
    | begin | load | memory | check => cases he
  | read u slot result => trivial
  | checked u result => trivial

namespace Controller

variable {log : List LogEntry} {c d : Controller} {t : TaskId} {r : ViewRequest} {e : Event}
  {result : Except Error Reply}

/-! ## What a refused request leaves behind -/

/-- An event of a request has come to nothing: everything else is as it was, and apart from the
answer to the request and the syntax check that it may be there is no news. -/
structure NoOp (t : TaskId) (r : ViewRequest) (result : Except Error Reply) (c d : Controller)
    (news : List Occurrence) : Prop where
  unmoved : Unmoved t c d
  news : ∀ o ∈ news, o = .answered t result ∨
    ∃ texts names, r = .check texts names ∧ o = .sent t 0 (.check texts names)

/-- Every event of a request has come to nothing so far. -/
def Quiet (t : TaskId) (r : ViewRequest) (result : Except Error Reply) (log : List LogEntry) :
    Prop :=
  ∀ found e, .event found e ∈ log → e.worker found = t →
    ∃ next news, found.happen? e = some (next, news) ∧ NoOp t r result found next news

/-- What a log says of a request: it waits and has not been answered, or it has ended; and if it is
a syntax check under way, or was refused, then its events have come to nothing. -/
inductive Story (t : TaskId) (r : ViewRequest) (log : List LogEntry) (c : Controller) : Prop where
  | waits {w : Wait} (hw : CanAwait Error.IsRemote r w) (ht : c.tasks[t]? = some ⟨.request, w⟩)
      (hopen : ∀ result, .occurrence (.answered t result) ∉ log)
  | asks {texts names} (hr : r = .check texts names) (ht : c.tasks[t]? = some ⟨.request, .check⟩)
      (hopen : ∀ result, .occurrence (.answered t result) ∉ log)
      (hquiet : ∀ result, Quiet t r result log)
  | ended (hg : Gone t c)
      (hquiet : ∀ result, .occurrence (.answered t result) ∈ log → Denial r result →
        Quiet t r result log)

/-- A request that comes to its end is not refused: what can fail it then is the simulator. -/
lemma not_denial_of_completion (hc : Completion Error.IsRemote c r result) : ¬ Denial r result := by
  intro hd
  cases hc with
  | done | toggled | selected | picture => cases hd
  | failed hr herr =>
    cases hd with
    | busy | noProject | invalidTransition | invalidDelay | invalidRange => exact herr
    | check => rcases hr with hr | hr <;> cases hr
  | overtaken =>
    cases hd with
    | busy hr => rcases hr with hr | hr | hr <;> cases hr

/-! ## The log of a task -/

lemma Quiet.append {more : List LogEntry} (h : Quiet t r result log)
    (hmore : ∀ x ∈ more, ¬ x.IsOf t) : Quiet t r result (more ++ log) := by
  intro found e he hworker
  rcases List.mem_append.mp he with he | he
  · exact absurd hworker (hmore _ he)
  · exact h found e he hworker

/-- What has been said of a task is said of a number that is used up. -/
lemma Run.isOf_lt {settings : ControllerSettings} (h : Run (.ofSettings settings) log c) :
    ∀ x ∈ log, x.IsOf t → t < c.nextTask := by
  induction h with
  | start => exact fun x hx => by cases hx
  | @next log c d e news hrun hd ih =>
    intro x hx hof
    have hs := sound_of_run hrun
    obtain ⟨d', hd', rfl, -⟩ := happen?_eq_some hd
    rw [List.append_cons] at hx
    rcases List.mem_append.mp hx with hx | hx
    · have hworker : e.worker c = t := by
        by_contra hne
        exact hs.not_isOf hd hne hx hof
      exact hworker ▸ (hs.forget []).worker_lt (d := d') hd'
    · exact Nat.lt_of_lt_of_le (ih x hx hof) ((hs.forget []).isBy (d := d') hd').nextTask

lemma event_of_mem_entries {found : Controller} {e' : Event} {news : List Occurrence}
    (h : .event found e' ∈ entries c e news) : found = c ∧ e' = e := by
  rcases List.mem_append.mp h with h | h
  · obtain ⟨_, _, heq⟩ := List.mem_map.mp h
    cases heq
  · cases List.mem_singleton.mp h
    exact ⟨rfl, rfl⟩

lemma mem_answers_of_mem_entries (h : .occurrence (.answered t result) ∈
    entries c e d.history.reverse) : (t, result) ∈ d.answers := by
  rw [entries, List.reverse_reverse] at h
  rcases List.mem_append.mp h with h | h
  · obtain ⟨o, ho, heq⟩ := List.mem_map.mp h
    cases heq
    exact List.mem_filterMap.mpr ⟨_, ho, rfl⟩
  · cases List.mem_singleton.mp h

lemma Quiet.event {news : List Occurrence} (h : Quiet t r result log)
    (hd : c.happen? e = some (d, news)) (hn : NoOp t r result c d news) :
    Quiet t r result (entries c e news ++ log) := by
  intro found e' he hworker
  rcases List.mem_append.mp he with he | he
  · obtain ⟨rfl, rfl⟩ := event_of_mem_entries he
    exact ⟨d, news, hd, hn⟩
  · exact h found e' he hworker

/-! ## What an event adds to the story of a request -/

lemma Gone.of_getElem? (hlt : t < c.nextTask) (ht : c.tasks[t]? = none) : Gone t c :=
  ⟨hlt, by rw [Std.ExtTreeMap.contains_eq_isSome_getElem?, ht]; rfl⟩

section

variable {d' : Controller} {news : List Occurrence}

/-- Events of others leave the story of a request as it is. -/
lemma Story.other (h : Story t r log c) (hs : Sound c) (hd : c.happen? e = some (d, news))
    (hne : e.worker c ≠ t) : Story t r (entries c e news ++ log) d := by
  have hnone : ∀ x ∈ entries c e news, ¬ x.IsOf t := fun x hx => hs.not_isOf hd hne hx
  have hkeep {result : Except Error Reply}
      (ha : .occurrence (.answered t result) ∈ entries c e news ++ log) :
      .occurrence (.answered t result) ∈ log := by
    rcases List.mem_append.mp ha with ha | ha
    · exact absurd rfl (hnone _ ha)
    · exact ha
  obtain ⟨d', hd', rfl, rfl⟩ := happen?_eq_some hd
  cases h with
  | waits hw ht hopen =>
    exact .waits hw ((hs.forget []).request_stays (d := d') hd' ht hne)
      fun result ha => hopen result (hkeep ha)
  | asks hr ht hopen hquiet =>
    exact .asks hr ((hs.forget []).request_stays (d := d') hd' ht hne)
      (fun result ha => hopen result (hkeep ha)) fun result => (hquiet result).append hnone
  | ended hg hquiet =>
    exact .ended (Gone.perform (d := d') (hs.forget []) hg hd')
      fun result ha hdenial => (hquiet result (hkeep ha) hdenial).append hnone

/-- The story of a request that goes on. -/
lemma Story.of_progress (hlt : t < d'.nextTask)
    (hopen : ∀ result, .occurrence (.answered t result) ∉ log)
    (h : Progress Error.IsRemote t r { c with history := [] } d') :
    Story t r (entries c e d'.history.reverse ++ log)
      { d' with history := d'.history ++ c.history } := by
  have hnew {result : Except Error Reply}
      (ha : .occurrence (.answered t result) ∈ entries c e d'.history.reverse ++ log) :
      (t, result) ∈ d'.answers := by
    rcases List.mem_append.mp ha with ha | ha
    · exact mem_answers_of_mem_entries ha
    · exact absurd ha (hopen result)
  cases h with
  | waits hw ht ha =>
    refine .waits hw ht fun result hmem => ?_
    rw [ha] at hnew
    cases hnew hmem
  | completed hc ht ha =>
    refine .ended (.of_getElem? hlt ht) fun result hmem hdenial => ?_
    rw [ha] at hnew
    cases List.mem_singleton.mp (hnew hmem)
    exact absurd hdenial (not_denial_of_completion hc)

/-- The story of a request that is taken up, or whose syntax check is answered. -/
lemma Story.of_sequel (hlt : t < d'.nextTask)
    (hd : c.happen? e = some ({ d' with history := d'.history ++ c.history }, d'.history.reverse))
    (hopen : ∀ result, .occurrence (.answered t result) ∉ log)
    (hquiet : ∀ result, Quiet t r result log)
    (h : Sequel Error.IsRemote t r { c with history := [] } d') :
    Story t r (entries c e d'.history.reverse ++ log)
      { d' with history := d'.history ++ c.history } := by
  have hunmoved (hm : Unmoved t { c with history := [] } d') :
      Unmoved t c { d' with history := d'.history ++ c.history } :=
    ⟨hm.session, hm.state, hm.delay, hm.guard, hm.line, hm.loop, hm.others⟩
  cases h with
  | progress h => exact .of_progress hlt hopen h
  | @asks texts names hr ht hm hh =>
    refine .asks hr ht (fun result hmem => ?_) fun result => (hquiet result).event hd ?_
    · rcases List.mem_append.mp hmem with hmem | hmem
      · have ha := mem_answers_of_mem_entries hmem
        rw [answers, hh] at ha
        cases ha
      · exact hopen result hmem
    · refine ⟨hunmoved hm, fun o ho => .inr ⟨texts, names, hr, ?_⟩⟩
      rw [hh] at ho
      exact List.mem_singleton.mp ho
  | @refused result hdenial ht hm hh =>
    refine .ended (.of_getElem? hlt ht) fun result' hmem _ => ?_
    obtain rfl : result' = result := by
      rcases List.mem_append.mp hmem with hmem | hmem
      · have ha := mem_answers_of_mem_entries hmem
        rw [answers, hh] at ha
        cases List.mem_singleton.mp ha
        rfl
      · exact absurd hmem (hopen result')
    refine (hquiet result').event hd ⟨hunmoved hm, fun o ho => .inl ?_⟩
    rw [hh] at ho
    exact List.mem_singleton.mp ho

/-- The story of a request that is set to work again. -/
lemma Story.worked (h : Story (e.worker c) r log c) (hs : Sound c)
    (hd : c.happen? e = some ({ d' with history := d'.history ++ c.history }, d'.history.reverse))
    (hd' : { c with history := [] }.perform? e = some d') (hP : e.FailsWith Error.IsRemote)
    (hold : e.worker c < c.nextTask) (hlt : e.worker c < d'.nextTask) :
    Story (e.worker c) r (entries c e d'.history.reverse ++ log)
      { d' with history := d'.history ++ c.history } := by
  cases h with
  | waits hw ht hopen =>
    exact .of_progress hlt hopen (progress_of_perform (hs.forget []) rfl hd' hP ht hw)
  | asks hr ht hopen hquiet =>
    subst hr
    exact .of_sequel hlt hd hopen hquiet (sequel_of_checked (hs.forget []) rfl hd' ht)
  | ended hg hquiet =>
    -- what has ended is not set to work, and its number is used up
    obtain ⟨task, ht⟩ := worker_mem hd' fun s he => by
      subst he
      exact Nat.lt_irrefl _ hold
    have hgone := hg.2
    rw [Std.ExtTreeMap.contains_eq_isSome_getElem?] at hgone
    rw [show c.tasks[e.worker c]? = some task from ht] at hgone
    cases hgone

end

/-! ## Runs -/

/-- In every run the story of every request goes on. -/
theorem Run.story {settings : ControllerSettings} (h : Run (.ofSettings settings) log c)
    (hgenuine : ∀ found e, .event found e ∈ log → e.IsGenuine) :
    ∀ found r, .event found (.request r) ∈ log → Story found.nextTask r log c := by
  induction h with
  | start => exact fun found r hr => by cases hr
  | @next log c d e news hrun hd ih =>
    intro found r hr
    have hs := sound_of_run hrun
    have hstory := ih fun found e he => hgenuine found e
      (List.mem_append_right _ (List.mem_cons_of_mem _ he))
    have hP : e.FailsWith Error.IsRemote :=
      (hgenuine c e (List.mem_append_right _ List.mem_cons_self)).failsWith
    rw [List.append_cons] at hr ⊢
    change _ ∈ entries c e news ++ log at hr
    change Story _ _ (entries c e news ++ log) _
    obtain ⟨d', hd', rfl, rfl⟩ := happen?_eq_some hd
    have hlt : e.worker c < d'.nextTask := (hs.forget []).worker_lt hd'
    rcases List.mem_append.mp hr with hr | hr
    · -- the request is taken up under a number of which the log says nothing yet
      obtain ⟨rfl, rfl⟩ := event_of_mem_entries hr
      have hfree : ∀ x ∈ log, ¬ x.IsOf found.nextTask :=
        fun x hx hof => Nat.lt_irrefl _ (hrun.isOf_lt x hx hof)
      cases hd'
      exact .of_sequel hlt hd (fun result ha => hfree _ ha rfl)
        (fun result found' e he hworker => absurd hworker (hfree _ he))
        (sequel_of_request (hs.forget []) rfl (disciplined_of_run hrun).unheld r)
    · have hold : found.nextTask < c.nextTask := hrun.isOf_lt _ hr rfl
      by_cases hne : e.worker c = found.nextTask
      · have hall := hstory found r hr
        rw [← hne] at hold hall ⊢
        exact hall.worked hs hd hd' hP hold hlt
      · exact (hstory found r hr).other hs hd hne

/-- A request that is refused has done nothing. -/
theorem refused_requests_are_no_ops {settings : ControllerSettings}
    (h : Run (.ofSettings settings) log c)
    (hgenuine : ∀ found e, .event found e ∈ log → e.IsGenuine) {found : Controller}
    (hr : .event found (.request r) ∈ log)
    (ha : .occurrence (.answered found.nextTask result) ∈ log) (hd : Denial r result) :
    ∀ at' e, .event at' e ∈ log → e.worker at' = found.nextTask →
      ∃ next news, at'.happen? e = some (next, news) ∧
        NoOp found.nextTask r result at' next news := by
  cases h.story hgenuine found r hr with
  | waits hw ht hopen => exact absurd ha (hopen result)
  | asks hr ht hopen hquiet => exact absurd ha (hopen result)
  | ended hg hquiet => exact hquiet result ha hd

/-- While a program is loaded a syntax check is lost on its way: it is asked in one event and
refused in another, with a step refused in between. -/
theorem lost_check_is_no_op : ∃ log c found,
    replay (.ofSettings oneSource) [.request .run, .request (.check ["START 0"] ["main.asm"]),
      .request .step, .checked 1 (Arrival.lost "timeout").checked] = some (log, c) ∧
    .event found (.request (.check ["START 0"] ["main.asm"])) ∈ log ∧
    .occurrence (.answered found.nextTask (.error (.transport "timeout"))) ∈ log ∧
    ∀ at' e, .event at' e ∈ log → e.worker at' = found.nextTask →
      ∃ next news, at'.happen? e = some (next, news) ∧
        NoOp found.nextTask (.check ["START 0"] ["main.asm"]) (.error (.transport "timeout")) at'
          next news := by
  obtain ⟨⟨log, c⟩, hlog⟩ := Option.isSome_iff_exists.mp (show (replay (.ofSettings oneSource)
    [.request .run, .request (.check ["START 0"] ["main.asm"]), .request .step,
      .checked 1 (Arrival.lost "timeout").checked]).isSome = true by rfl)
  have hend : (log, c) = (replay (.ofSettings oneSource) [.request .run,
      .request (.check ["START 0"] ["main.asm"]), .request .step,
      .checked 1 (Arrival.lost "timeout").checked]).get (by rfl) := by
    simp only [hlog, Option.get_some]
  have hgenuine (found : Controller) (e : Event) (he : .event found e ∈ log) : e.IsGenuine := by
    have hmem := mem_of_replay hlog he
    simp only [List.mem_cons, List.not_mem_nil, or_false] at hmem
    rcases hmem with rfl | rfl | rfl | rfl
    · trivial
    · trivial
    · trivial
    · exact ⟨1, 0, .check ["START 0"] ["main.asm"], .lost "timeout", rfl⟩
  have hcheck : ∃ found,
      .event found (.request (.check ["START 0"] ["main.asm"])) ∈ (log, c).1 ∧
      .occurrence (.answered found.nextTask (.error (.transport "timeout"))) ∈ (log, c).1 := by
    rw [hend]
    exact ⟨_, .tail _ (.tail _ (.tail _ (.tail _ (.tail _ (.head _))))), .head _⟩
  obtain ⟨found, hr, ha⟩ := hcheck
  exact ⟨log, c, found, hlog, hr, ha,
    refused_requests_are_no_ops (.of_replay hlog) hgenuine hr ha .check⟩

end Controller
end SicDebugger
