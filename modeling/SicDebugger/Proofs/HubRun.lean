import SicDebugger.Proofs.Discipline
import SicDebugger.Proofs.Outcomes
import SicDebugger.Proofs.Tidings
import SicDebugger.View.Hub

/-!
# Runs of the hub

A run of the hub is any sequence of events that can happen one after the other: views come and go,
frames arrive and are looked at, pauses and stops begin that were handed over, and the controller
moves on. A request that a link waits for, or that is carried out beside it, is held for this link
alone until the controller has answered it.
-/

namespace SicDebugger

/-- The pause or stop that an occurrence hands over. -/
def HubOccurrence.handed? : HubOccurrence → Option (LinkId × ViewRequest)
  | detaching l r => some (l, r)
  | _ => none

/-- The request that a text makes. -/
def ViewRequest.ofText? (s : String) : Option ViewRequest :=
  (Json.ofText? s).bind ViewRequest.ofJson?

/-- Whether a request is carried out beside the link that it comes from. -/
def ViewRequest.isDetached : ViewRequest → Bool
  | pause => true
  | stop => true
  | _ => false

/-- An entry in the log of a run: an event with the hub that it finds, and what has happened in
it. -/
structure HubEntry where
  found : Hub
  event : HubEvent
  news : List HubOccurrence

namespace Hub

/-- The pauses and stops that a log has handed over and that have not begun. -/
def handedIn : List HubEntry → List (LinkId × ViewRequest)
  | [] => []
  | x :: log =>
    (match x.event with
      | .detach l r => (handedIn log).erase (l, r)
      | _ => handedIn log) ++ x.news.filterMap HubOccurrence.handed?

/-- The runs of a hub, with the log and the hub at the end. A pause or a stop begins once for each
time that it was handed over. -/
inductive Run (start : Hub) : List HubEntry → Hub → Prop where
  | start : Run start [] start
  | next {log : List HubEntry} {h h' : Hub} {e : HubEvent} {news : List HubOccurrence} :
      Run start log h → (∀ l r, e = .detach l r → (l, r) ∈ handedIn log) →
      h.perform? e = some (h', news) → Run start (⟨h, e, news⟩ :: log) h'

/-- The hub of the settings, without views. -/
def ofSettings (settings : ControllerSettings) : Hub where
  controller := .ofSettings settings

variable {h h' : Hub} {l l' : LinkId} {t t' : TaskId} {r r' : ViewRequest} {link link' : Link}
  {result : Except Error Reply}

/-! ## Requests that are held -/

/-- A link waits for a request. -/
def WaitsFor (h : Hub) (l : LinkId) (t : TaskId) (r : ViewRequest) : Prop :=
  ∃ link, h.links[l]? = some link ∧ link.waiting = some (t, r)

/-- A request is held for a link: the link waits for it, or it is carried out beside the link. -/
def Held (h : Hub) (l : LinkId) (t : TaskId) (r : ViewRequest) : Prop :=
  WaitsFor h l t r ∨ h.detached[t]? = some (l, r)

/-- The requests that are held satisfy a condition, and each is held for one link, in one way. -/
structure Owned (h : Hub) (P : TaskId → ViewRequest → Prop) : Prop where
  satisfied : ∀ l t r, Held h l t r → P t r
  unique : ∀ l l' t r r', Held h l t r → Held h l' t r' → l' = l ∧ r' = r
  apart : ∀ l t r, WaitsFor h l t r → h.detached[t]? = none

lemma getElem?_withLink (h : Hub) (l l' : LinkId) (f : Link → Link) :
    (h.withLink l f).links[l']? = if l = l' then h.links[l]?.map f else h.links[l']? := by
  rw [withLink, Std.ExtTreeMap.getElem?_alter]
  simp only [Nat.compare_eq_eq]

lemma getElem?_withLink_self (h : Hub) (l : LinkId) (f : Link → Link) :
    (h.withLink l f).links[l]? = h.links[l]?.map f := by
  rw [getElem?_withLink, if_pos rfl]

lemma getElem?_withLink_of_ne {f : Link → Link} (hne : l' ≠ l) :
    (h.withLink l f).links[l']? = h.links[l']? := by
  rw [getElem?_withLink, if_neg (Ne.symm hne)]

lemma waitsFor_withLink {f : Link → Link} : WaitsFor (h.withLink l f) l' t r ↔
    l' ≠ l ∧ WaitsFor h l' t r ∨
      l' = l ∧ ∃ link, h.links[l]? = some link ∧ (f link).waiting = some (t, r) := by
  by_cases hne : l' = l
  · subst hne
    rw [WaitsFor, getElem?_withLink_self]
    constructor
    · rintro ⟨link', hl', hw⟩
      obtain ⟨link, hl, rfl⟩ := Option.map_eq_some_iff.mp hl'
      exact .inr ⟨rfl, link, hl, hw⟩
    · rintro (⟨hne, -⟩ | ⟨-, link, hl, hw⟩)
      · exact absurd rfl hne
      · exact ⟨f link, Option.map_eq_some_iff.mpr ⟨link, hl, rfl⟩, hw⟩
  · rw [WaitsFor, getElem?_withLink_of_ne hne]
    constructor
    · exact fun hw => .inl ⟨hne, hw⟩
    · rintro (⟨-, hw⟩ | ⟨he, -⟩)
      · exact hw
      · exact absurd he hne

/-- To change a link otherwise leaves alone what the links wait for. -/
lemma waitsFor_withLink_of_eq {f : Link → Link} (hf : ∀ link, (f link).waiting = link.waiting) :
    WaitsFor (h.withLink l f) l' t r ↔ WaitsFor h l' t r := by
  rw [waitsFor_withLink]
  constructor
  · rintro (⟨-, hw⟩ | ⟨rfl, link, hl, hw⟩)
    · exact hw
    · exact ⟨link, hl, (hf link).symm.trans hw⟩
  · rintro ⟨link, hl, hw⟩
    by_cases hne : l' = l
    · exact .inr ⟨hne, link, hne ▸ hl, (hf link).trans hw⟩
    · exact .inl ⟨hne, link, hl, hw⟩

lemma waitingFor?_eq_some (hw : h.waitingFor? t = some (l, r)) : WaitsFor h l t r := by
  obtain ⟨⟨l', link⟩, hmem, hone⟩ := List.exists_of_findSome?_eq_some hw
  dsimp only at hone
  split at hone
  · next task r' hwaiting =>
    split at hone
    · next htask =>
      cases hone
      subst htask
      exact ⟨link, Std.ExtTreeMap.mem_toList_iff_getElem?_eq_some.mp hmem, hwaiting⟩
    · cases hone
  · cases hone

lemma waitingFor?_eq_none (hw : h.waitingFor? t = none) : ¬ WaitsFor h l t r := by
  rintro ⟨link, hl, hwaiting⟩
  have hone := List.findSome?_eq_none_iff.mp hw (l, link)
    (Std.ExtTreeMap.mem_toList_iff_getElem?_eq_some.mpr hl)
  dsimp only at hone
  rw [hwaiting] at hone
  dsimp only at hone
  rw [if_pos rfl] at hone
  cases hone

/-- The ways to pass a result on: to the link that waits for it, to the link that it is carried out
beside, or to nobody. -/
inductive Passed (h : Hub) (t : TaskId) (result : Except Error Reply) : Hub → Prop where
  | waiting {l : LinkId} {r : ViewRequest} (hw : WaitsFor h l t r) :
      Passed h t result
        (h.withLink l fun link => { link.tell (replies r result) with waiting := none })
  | beside {l : LinkId} {r : ViewRequest} (hd : h.detached[t]? = some (l, r))
      (hw : ∀ l r, ¬ WaitsFor h l t r) :
      Passed h t result ({ h with detached := h.detached.erase t }.withLink l fun link =>
        { link with refusals := link.refusals ++ replies r result })
  | nobody (hn : ∀ l r, ¬ Held h l t r) : Passed h t result h

lemma passed_passResult (h : Hub) (t : TaskId) (result : Except Error Reply) :
    Passed h t result (h.passResult t result) := by
  unfold passResult
  split
  · next hw => exact .waiting (waitingFor?_eq_some hw)
  · next l r hw hd => exact .beside hd fun _ _ => waitingFor?_eq_none hw
  · next hw hd =>
    refine .nobody fun l r hheld => ?_
    rcases hheld with hwaits | hdetached
    · exact waitingFor?_eq_none hw hwaits
    · rw [hd] at hdetached
      cases hdetached

/-- A link has been told the result of a request, or keeps it until it can tell its view. -/
structure Reported (r : ViewRequest) (result : Except Error Reply) (link link' : Link) : Prop where
  inbox : link'.inbox = link.inbox
  messages : (link'.refusals ++ link'.told).Perm
    (replies r result ++ (link.refusals ++ link.told))

section

variable {P : TaskId → ViewRequest → Prop} (hp : Passed h t result h') (ho : h.Owned P)
include hp ho

/-- A result that is passed on leaves every other link as it was. -/
lemma Passed.links (hheld : Held h l t r) (hl' : h'.links[l']? = some link') :
    ∃ link, h.links[l']? = some link ∧
      (l' ≠ l ∧ link' = link ∨ l' = l ∧ Reported r result link link') := by
  cases hp with
  | @waiting k s hw =>
    obtain ⟨rfl, rfl⟩ := ho.unique _ _ _ _ _ hheld (.inl hw)
    by_cases hne : l' = k
    · subst hne
      rw [getElem?_withLink_self] at hl'
      obtain ⟨link, hl, rfl⟩ := Option.map_eq_some_iff.mp hl'
      refine ⟨link, hl, .inr ⟨rfl, rfl, ?_⟩⟩
      show (link.refusals ++ ((replies s result).reverse ++ link.told)).Perm _
      rw [← List.append_assoc, ← List.append_assoc]
      exact .append_right _ (List.perm_append_comm.trans (.append_right _ (List.reverse_perm _)))
    · rw [getElem?_withLink_of_ne hne] at hl'
      exact ⟨link', hl', .inl ⟨hne, rfl⟩⟩
  | @beside k s hd hw =>
    obtain ⟨rfl, rfl⟩ := ho.unique _ _ _ _ _ hheld (.inr hd)
    by_cases hne : l' = k
    · subst hne
      rw [getElem?_withLink_self] at hl'
      obtain ⟨link, hl, rfl⟩ := Option.map_eq_some_iff.mp hl'
      refine ⟨link, hl, .inr ⟨rfl, rfl, ?_⟩⟩
      show (link.refusals ++ replies s result ++ link.told).Perm _
      rw [← List.append_assoc]
      exact .append_right _ List.perm_append_comm
    · rw [getElem?_withLink_of_ne hne] at hl'
      exact ⟨link', hl', .inl ⟨hne, rfl⟩⟩
  | nobody hn => exact absurd hheld (hn l r)

lemma Passed.waitsFor : WaitsFor h' l' t' r' ↔ WaitsFor h l' t' r' ∧ t' ≠ t := by
  cases hp with
  | @waiting k s hw =>
    rw [waitsFor_withLink]
    constructor
    -- another link cannot wait for the same task, and this one waits no more
    · rintro (⟨hne, hw'⟩ | ⟨-, link, -, hw'⟩)
      · refine ⟨hw', ?_⟩
        rintro rfl
        exact hne (ho.unique _ _ _ _ _ (.inl hw) (.inl hw')).1
      · cases hw'
    · rintro ⟨hw', hne⟩
      refine .inl ⟨?_, hw'⟩
      rintro rfl
      obtain ⟨link, hl, hwaiting⟩ := hw
      obtain ⟨link', hl', hwaiting'⟩ := hw'
      cases hl.symm.trans hl'
      cases hwaiting.symm.trans hwaiting'
      exact hne rfl
  | beside hd hw =>
    refine (waitsFor_withLink_of_eq ?_).trans ⟨fun hw' => ⟨hw', ?_⟩, And.left⟩
    · exact fun _ => rfl
    · rintro rfl
      exact hw _ _ hw'
  | nobody hn => exact ⟨fun hw' => ⟨hw', fun e => hn l' r' (e ▸ .inl hw')⟩, And.left⟩

lemma Passed.detached_iff : h'.detached[t']? = some (l', r') ↔
    h.detached[t']? = some (l', r') ∧ t' ≠ t := by
  cases hp with
  | waiting hw =>
    refine ⟨fun hd' => ⟨hd', ?_⟩, And.left⟩
    rintro rfl
    cases (ho.apart _ _ _ hw).symm.trans hd'
  | beside hd hw =>
    show (h.detached.erase t)[t']? = some (l', r') ↔ _
    rw [Std.ExtTreeMap.getElem?_erase]
    simp only [Nat.compare_eq_eq]
    split
    · next heq => simp [heq]
    · next hne => exact ⟨fun hd' => ⟨hd', Ne.symm hne⟩, And.left⟩
  | nobody hn => exact ⟨fun hd' => ⟨hd', fun e => hn l' r' (e ▸ .inr hd')⟩, And.left⟩

/-- A request whose result is passed on is held no longer. -/
lemma Passed.held : Held h' l' t' r' ↔ Held h l' t' r' ∧ t' ≠ t := by
  rw [Held, hp.waitsFor ho, hp.detached_iff ho, ← or_and_right]
  rfl

end

/-! ## What the hub hears -/

lemma passResult_feed (h : Hub) (feed : List ViewMessage) (t : TaskId)
    (result : Except Error Reply) :
    { h with feed }.passResult t result = { h.passResult t result with feed } := by
  have hw : { h with feed }.waitingFor? t = h.waitingFor? t := rfl
  unfold passResult
  rw [hw]
  cases h.waitingFor? t with
  | some held => rfl
  | none => cases h.detached[t]? <;> rfl

lemma feed_passResult (h : Hub) (t : TaskId) (result : Except Error Reply) :
    (h.passResult t result).feed = h.feed := by
  have hp := passed_passResult h t result
  generalize h.passResult t result = h' at hp ⊢
  cases hp <;> rfl

/-- Passes results on, one after the other. -/
def passAll (h : Hub) (answers : List (TaskId × Except Error Reply)) : Hub :=
  answers.foldl (fun h a => h.passResult a.1 a.2) h

lemma passAll_feed (answers : List (TaskId × Except Error Reply)) (h : Hub)
    (feed : List ViewMessage) :
    { h with feed }.passAll answers = { h.passAll answers with feed } := by
  induction answers generalizing h with
  | nil => rfl
  | cons a answers ih =>
    show ({ h with feed }.passResult a.1 a.2).passAll answers = _
    rw [passResult_feed, ih]
    rfl

/-- The hub passes on what is answered and keeps what all views are told. -/
lemma foldl_hear (news : List Occurrence) (h : Hub) :
    news.foldl hear h = { h.passAll (news.filterMap Occurrence.answer?) with
      feed := (news.filterMap Occurrence.message?).reverse ++ h.feed } := by
  induction news generalizing h with
  | nil => rfl
  | cons o news ih =>
    rw [List.foldl_cons, ih]
    cases o with
    | published m =>
      have hheard : h.hear (.published m) = { h with feed := m :: h.feed } := rfl
      have hmessages : (Occurrence.published m :: news).filterMap Occurrence.message? =
          m :: news.filterMap Occurrence.message? := rfl
      rw [hheard, hmessages, passAll_feed, List.reverse_cons, List.append_assoc]
      rfl
    | answered t result =>
      have hheard : h.hear (.answered t result) = h.passResult t result := rfl
      rw [hheard, feed_passResult]
      rfl
    | sent | slept | ready => rfl

/-! ## Driving the controller -/

/-- A request is under way in the controller. -/
def Pending (c : Controller) (t : TaskId) (r : ViewRequest) : Prop :=
  ∃ w, c.tasks[t]? = some ⟨.request, w⟩ ∧
    (Controller.CanAwait (fun _ => True) r w ∨
      ∃ texts names, r = .check texts names ∧ w = .check)

/-- A request is under way, or is about to be taken up in an event. -/
def Awaited (c : Controller) (e : Event) (t : TaskId) (r : ViewRequest) : Prop :=
  Pending c t r ∨ e = .request r ∧ t = c.nextTask

/-- A result tells a view no refusal but that of its own request. -/
def IsPlain (c : Controller) (r : ViewRequest) (result : Except Error Reply) : Prop :=
  ∀ messages, result = .ok (.picture messages) → r = .queryState ∧ messages = c.picture

end Hub

namespace Controller

variable {c d : Controller} {e : Event} {t : TaskId} {r : ViewRequest}

open Hub in
/-- A request that an event sets to work is under way after it, or has been answered once. -/
lemma worked_of_perform (hs : Sound c) (hh : c.history = []) (hline : c.guard = none → c.line = [])
    (hd : c.perform? e = some d) (ha : Awaited c e (e.worker c) r) :
    d.answers = [] ∧ Pending d (e.worker c) r ∨
      ∃ result, d.answers = [(e.worker c, result)] ∧ IsPlain c r result := by
  have hprogress (h : Progress (fun _ => True) (e.worker c) r c d) :
      d.answers = [] ∧ Pending d (e.worker c) r ∨
        ∃ result, d.answers = [(e.worker c, result)] ∧ IsPlain c r result := by
    cases h with
    | waits hw ht ha => exact .inl ⟨ha, _, ht, .inl hw⟩
    | @completed result hc ht ha =>
      refine .inr ⟨result, ha, fun messages he => ?_⟩
      subst he
      cases hc
      exact ⟨rfl, rfl⟩
  have hsequel (h : Sequel (fun _ => True) (e.worker c) r c d) :
      d.answers = [] ∧ Pending d (e.worker c) r ∨
        ∃ result, d.answers = [(e.worker c, result)] ∧ IsPlain c r result := by
    cases h with
    | progress h => exact hprogress h
    | asks hr ht hm hh =>
      exact .inl ⟨by rw [answers, hh]; rfl, _, ht, .inr ⟨_, _, hr, rfl⟩⟩
    | @refused result hdenial ht hm hh =>
      refine .inr ⟨result, by rw [answers, hh]; rfl, fun messages he => ?_⟩
      subst he
      cases hdenial
  rcases ha with ⟨w, ht, hw | ⟨texts, names, rfl, rfl⟩⟩ | ⟨rfl, -⟩
  · exact hprogress (progress_of_perform hs hh hd e.failsWith_true ht hw)
  · exact hsequel (sequel_of_checked hs hh hd ht)
  · cases hd
    exact hsequel (sequel_of_request hs hh hline r)

end Controller

namespace Hub

variable {h h' : Hub} {l : LinkId} {link : Link} {t : TaskId} {r : ViewRequest} {e : Event}
  {c' : Controller} {occurrences : List Occurrence}

/-- A request goes on: it is under way, and no occurrence answers it. -/
def GoesOn (c : Controller) (occurrences : List Occurrence) (t : TaskId) (r : ViewRequest) : Prop :=
  Pending c t r ∧ ∀ result, .answered t result ∉ occurrences

/-- What comes of driving the controller: the requests that are held go on; or one of them is
answered, and its result is passed on, and the others go on. -/
inductive Driven (h : Hub) (c' : Controller) (occurrences : List Occurrence)
    (feed : List ViewMessage) : Hub → Prop where
  | goesOn (hall : ∀ l t r, Held h l t r → GoesOn c' occurrences t r) :
      Driven h c' occurrences feed { h with controller := c', feed }
  | passes {l t r result h'} (hheld : Held h l t r) (ha : .answered t result ∈ occurrences)
      (hplain : IsPlain h.controller r result)
      (hp : Passed { h with controller := c', feed } t result h')
      (hothers : ∀ l' t' r', Held h l' t' r' → t' ≠ t → GoesOn c' occurrences t' r') :
      Driven h c' occurrences feed h'

/-- The controller of a hub takes part in a run. -/
def Reachable (settings : ControllerSettings) (h : Hub) : Prop :=
  ∃ log, Controller.Run (.ofSettings settings) log h.controller

lemma isPublic_of_happen {c : Controller} (hd : c.happen? e = some (c', occurrences)) :
    ∀ m ∈ occurrences.filterMap Occurrence.message?, m.isRejected = false := by
  obtain ⟨d, hperform, -, rfl⟩ := Controller.happen?_eq_some hd
  have hpublic := (Controller.tidings_of_perform hperform).isPublic fun m hm => by cases hm
  rw [List.filterMap_reverse]
  exact fun m hm => hpublic m (List.mem_reverse.mp hm)

/-- Results of requests that are not held are passed on to nobody. -/
lemma passAll_of_not_held {answers : List (TaskId × Except Error Reply)}
    (hn : ∀ a ∈ answers, ∀ l r, ¬ Held h l a.1 r) : h.passAll answers = h := by
  induction answers with
  | nil => rfl
  | cons a answers ih =>
    have hone : h.passResult a.1 a.2 = h := by
      have hp := passed_passResult h a.1 a.2
      generalize h.passResult a.1 a.2 = h' at hp ⊢
      cases hp with
      | waiting hw => exact absurd (.inl hw) (hn a List.mem_cons_self _ _)
      | beside hd hw => exact absurd (.inr hd) (hn a List.mem_cons_self _ _)
      | nobody hn => rfl
    show (h.passResult a.1 a.2).passAll answers = h
    rw [hone]
    exact ih fun a ha => hn a (List.mem_cons_of_mem _ ha)

lemma mem_answers {result : Except Error Reply} :
    (t, result) ∈ occurrences.filterMap Occurrence.answer? ↔ .answered t result ∈ occurrences := by
  constructor
  · intro hmem
    obtain ⟨o, ho, hone⟩ := List.mem_filterMap.mp hmem
    cases o with
    | answered u result' =>
      cases hone
      exact ho
    | published | sent | slept | ready => cases hone
  · exact fun hmem => List.mem_filterMap.mpr ⟨_, hmem, rfl⟩

section

variable {c : Controller} {settings : ControllerSettings} {log : List LogEntry}
  (hrun : Controller.Run (.ofSettings settings) log c)
  (hd : c.happen? e = some (c', occurrences))
include hrun hd

lemma worker_of_mem_answers {a : TaskId × Except Error Reply}
    (ha : a ∈ occurrences.filterMap Occurrence.answer?) : a.1 = e.worker c := by
  have hs := (Controller.sound_of_run hrun).forget []
  obtain ⟨d, hperform, -, rfl⟩ := Controller.happen?_eq_some hd
  exact Controller.worker_of_answered (c := { c with history := [] }) hs hperform rfl
    (List.mem_reverse.mp (mem_answers.mp ha))

/-- A request that is not at work goes on. -/
lemma goesOn_of_ne (ha : Awaited c e t r) (hne : t ≠ e.worker c) : GoesOn c' occurrences t r := by
  refine ⟨?_, fun result hmem => hne (worker_of_mem_answers hrun hd (mem_answers.mpr hmem))⟩
  have hs := (Controller.sound_of_run hrun).forget []
  obtain ⟨d, hperform, rfl, -⟩ := Controller.happen?_eq_some hd
  rcases ha with ⟨w, ht, hw⟩ | ⟨rfl, rfl⟩
  · exact ⟨w, hs.request_stays (d := d) hperform ht (Ne.symm hne), hw⟩
  · exact absurd rfl hne

/-- A request that is at work goes on, or it is answered once. -/
lemma worked_of_happen (ha : Awaited c e (e.worker c) r) :
    occurrences.filterMap Occurrence.answer? = [] ∧ Pending c' (e.worker c) r ∨
      ∃ result, occurrences.filterMap Occurrence.answer? = [(e.worker c, result)] ∧
        IsPlain c r result := by
  have hs := (Controller.sound_of_run hrun).forget []
  have hline := (Controller.disciplined_of_run hrun).unheld
  obtain ⟨d, hperform, rfl, rfl⟩ := Controller.happen?_eq_some hd
  rw [List.filterMap_reverse]
  rcases Controller.worked_of_perform hs rfl hline hperform ha with ⟨hnone, hp⟩ | ⟨result, hone, hp⟩
  -- the history of an event is kept with the latest first
  · refine .inl ⟨?_, hp⟩
    show d.answers.reverse = []
    rw [hnone]
    rfl
  · refine .inr ⟨result, ?_, hp⟩
    show d.answers.reverse = _
    rw [hone]
    rfl

end

/-- Whatever the controller does, at most one request that is held is answered. -/
theorem driven_of_drive {settings : ControllerSettings} {news : List HubOccurrence}
    (hr : Reachable settings h) (ho : h.Owned (Awaited h.controller e))
    (hd : h.drive? e = some (h', news)) :
    ∃ c' occurrences feed, h.controller.happen? e = some (c', occurrences) ∧
      news = occurrences.map .controller ∧ (∀ m ∈ feed, m.isRejected = false) ∧
      Driven h c' occurrences (feed ++ h.feed) h' := by
  obtain ⟨⟨c', occurrences⟩, hc, hsame⟩ := Option.map_eq_some_iff.mp hd
  cases hsame
  refine ⟨c', occurrences, _, hc, rfl, fun m hm =>
    isPublic_of_happen hc m (List.mem_reverse.mp hm), ?_⟩
  obtain ⟨log, hrun⟩ := hr
  rw [foldl_hear]
  -- only the task at work is answered: either a link is to hear of that one, or none is
  by_cases hworker : ∃ l r, Held h l (e.worker h.controller) r
  · obtain ⟨l, r, hheld⟩ := hworker
    rcases worked_of_happen hrun hc (ho.satisfied l _ r hheld) with ⟨hnone, hp⟩ | ⟨result, hone, hp⟩
    · rw [hnone]
      refine .goesOn fun l' t r' h' => ?_
      by_cases hne : t = e.worker h.controller
      · subst hne
        obtain ⟨-, rfl⟩ := ho.unique _ _ _ _ _ hheld h'
        refine ⟨hp, fun result hmem => ?_⟩
        rw [← mem_answers, hnone] at hmem
        cases hmem
      · exact goesOn_of_ne hrun hc (ho.satisfied l' t r' h') hne
    · have hmem : .answered (e.worker h.controller) result ∈ occurrences := by
        rw [← mem_answers, hone]
        exact List.mem_cons_self
      rw [hone]
      refine .passes hheld hmem hp ?_ fun l' t' r' h' hne =>
        goesOn_of_ne hrun hc (ho.satisfied l' t' r' h') hne
      have hpassed := passed_passResult { h with
        controller := c'
        feed := (occurrences.filterMap Occurrence.message?).reverse ++ h.feed }
        (e.worker h.controller) result
      rw [passResult_feed { h with controller := c' }] at hpassed
      exact hpassed
  · have hsame : ({ h with controller := c' } : Hub).passAll
        (occurrences.filterMap Occurrence.answer?) = { h with controller := c' } :=
      passAll_of_not_held fun a ha l r hheld =>
        hworker ⟨l, r, worker_of_mem_answers hrun hc ha ▸ hheld⟩
    rw [hsame]
    exact .goesOn fun l t r hheld => goesOn_of_ne hrun hc (ho.satisfied l t r hheld) fun heq =>
      hworker ⟨l, r, heq ▸ hheld⟩

/-- What is passed on changes neither the controller nor the number of links. -/
lemma Passed.rest {result : Except Error Reply} (hp : Passed h t result h') :
    h'.controller = h.controller ∧ h'.nextLink = h.nextLink ∧ h'.feed = h.feed := by
  cases hp <;> exact ⟨rfl, rfl, rfl⟩

lemma controller_passAll (answers : List (TaskId × Except Error Reply)) :
    (h.passAll answers).controller = h.controller := by
  induction answers generalizing h with
  | nil => rfl
  | cons a answers ih => exact ih.trans (passed_passResult h a.1 a.2).rest.1

/-- To drive the controller is an event of the controller. -/
lemma happen?_of_drive {news : List HubOccurrence} (hd : h.drive? e = some (h', news)) :
    ∃ occurrences, h.controller.happen? e = some (h'.controller, occurrences) ∧
      news = occurrences.map .controller := by
  obtain ⟨⟨c', occurrences⟩, hc, hsame⟩ := Option.map_eq_some_iff.mp hd
  cases hsame
  refine ⟨occurrences, ?_, rfl⟩
  rw [foldl_hear]
  exact hc.trans (by rw [controller_passAll])

/-! ## What an event does -/

/-- A link has a frame to look at, and looks at it when it waits for nothing. -/
structure LooksAt (h : Hub) (l : LinkId) (link : Link) (f : Frame) (rest : List Frame) : Prop where
  found : h.links[l]? = some link
  inbox : link.inbox = f :: rest
  idle : link.waiting = none

/-- A request of a link is taken up: the link looks at its text, or it was handed over. -/
def Begins (h : Hub) (e : HubEvent) (l : LinkId) (r : ViewRequest) : Prop :=
  e = .detach l r ∨ e = .look l ∧ ∃ link s rest, LooksAt h l link (.text s) rest ∧
    ViewRequest.ofText? s = some r ∧ r.isDetached = false

/-- What an event does before the views are brought up to date. -/
inductive Reaction (h : Hub) : HubEvent → Hub → List HubOccurrence → Prop where
  | driven {e : Event} {h' : Hub} {news} (hd : h.drive? e = some (h', news)) :
      Reaction h (.controller e) h' news
  | connected : Reaction h .connect { h with
      links := h.links.insert h.nextLink
        (({ place := h.feed.length } : Link).tell h.controller.picture)
      nextLink := h.nextLink + 1 } []
  | arrived {l : LinkId} {f link} (hl : h.links[l]? = some link) :
      Reaction h (.frame l f) (h.withLink l fun link => { link with inbox := link.inbox ++ [f] }) []
  | skipped {l : LinkId} {link rest} (hl : LooksAt h l link .other rest) :
      Reaction h (.look l) (h.withLink l fun link => { link with inbox := rest }) []
  | closed {l : LinkId} {link rest} (hl : LooksAt h l link .close rest) :
      Reaction h (.look l) ((h.withLink l fun link => { link with inbox := rest }).close l) []
  | unreadable {l : LinkId} {link s rest} (hl : LooksAt h l link (.text s) rest)
      (hs : ViewRequest.ofText? s = none) :
      Reaction h (.look l)
        (h.withLink l fun link => { link with inbox := rest }.tell [Hub.unreadable]) []
  | handed {l : LinkId} {link s rest} {r : ViewRequest} (hl : LooksAt h l link (.text s) rest)
      (hs : ViewRequest.ofText? s = some r) (hr : r.isDetached = true) :
      Reaction h (.look l) (h.withLink l fun link => { link with inbox := rest })
        [.detaching l r]
  | attended {l : LinkId} {link s rest} {r : ViewRequest} {h' : Hub} {news}
      (hl : LooksAt h l link (.text s) rest) (hs : ViewRequest.ofText? s = some r)
      (hr : r.isDetached = false)
      (hd : (h.withLink l fun link =>
        { link with inbox := rest, waiting := some (h.controller.nextTask, r) }).drive?
          (.request r) = some (h', news)) :
      Reaction h (.look l) h' news
  | begun {l : LinkId} {r : ViewRequest} {h' : Hub} {news}
      (hd : { h with detached := h.detached.insert h.controller.nextTask (l, r) }.drive?
        (.request r) = some (h', news)) : Reaction h (.detach l r) h' news
  | cut {l : LinkId} : Reaction h (.cut l) { h with links := h.links.erase l } []

lemma withLink_withLink (h : Hub) (l : LinkId) (f g : Link → Link) :
    (h.withLink l f).withLink l g = h.withLink l fun link => g (f link) := by
  have hlinks : ((h.withLink l f).withLink l g).links =
      (h.withLink l fun link => g (f link)).links := by
    refine Std.ExtTreeMap.ext_getElem? fun k => ?_
    by_cases hk : k = l
    · rw [hk, getElem?_withLink_self, getElem?_withLink_self, getElem?_withLink_self,
        Option.map_map]
      rfl
    · rw [getElem?_withLink_of_ne hk, getElem?_withLink_of_ne hk, getElem?_withLink_of_ne hk]
  exact congrArg (fun links => { h with links }) hlinks

lemma reaction_of_handle {f : Frame} {rest : List Frame} {link : Link} {l : LinkId}
    {news : List HubOccurrence} (hl : LooksAt h l link f rest)
    (hd : (h.withLink l fun link => { link with inbox := rest }).handle? l f = some (h', news)) :
    Reaction h (.look l) h' news := by
  cases f with
  | other =>
    cases hd
    exact .skipped hl
  | close =>
    cases hd
    exact .closed hl
  | text s =>
    have hread : ViewRequest.ofText? s = (Json.ofText? s).bind ViewRequest.ofJson? := rfl
    simp only [handle?, ← hread] at hd
    split at hd
    · next hs =>
      cases hd
      rw [withLink_withLink]
      exact .unreadable hl hs
    · next hs =>
      cases hd
      exact .handed hl hs rfl
    · next hs =>
      cases hd
      exact .handed hl hs rfl
    · next r hpause hstop hs =>
      rw [attend?, withLink_withLink] at hd
      refine .attended hl hs ?_ hd
      cases r with
      | pause => exact absurd rfl hpause
      | stop => exact absurd rfl hstop
      | _ => rfl

/-- What an event does is one of what events do. -/
theorem reaction_of_react {e : HubEvent} {news : List HubOccurrence}
    (hd : h.react? e = some (h', news)) : Reaction h e h' news := by
  cases e with
  | controller e => exact .driven hd
  | connect =>
    cases hd
    exact .connected
  | frame l f =>
    simp only [react?, Std.ExtTreeMap.contains_eq_isSome_getElem?] at hd
    split at hd
    · next hl =>
      obtain ⟨link, hl⟩ := Option.isSome_iff_exists.mp hl
      cases hd
      exact .arrived hl
    · cases hd
  | look l =>
    simp only [react?] at hd
    split at hd
    · next link hl =>
      split at hd
      · next f rest hi =>
        split at hd
        · next hidle => exact reaction_of_handle ⟨hl, hi, Option.isNone_iff_eq_none.mp hidle⟩ hd
        · cases hd
      · cases hd
    · cases hd
  | detach l r => exact .begun hd
  | cut l =>
    cases hd
    exact .cut

/-! ## Bringing the views up to date -/

lemma perform?_eq_some {e : HubEvent} {news : List HubOccurrence}
    (hd : h.perform? e = some (h', news)) :
    ∃ b looking, Reaction h e b looking ∧ h' = b.update.1 ∧
      news = looking ++ b.update.2.map .waitingFrame := by
  obtain ⟨⟨b, looking⟩, hreact, hsame⟩ := Option.map_eq_some_iff.mp hd
  cases hsame
  exact ⟨b, looking, reaction_of_react hreact, rfl, rfl⟩

lemma getElem?_update (h : Hub) (l : LinkId) :
    h.update.1.links[l]? = h.links[l]?.map (·.catchUp h.feed h.controller.picture) :=
  Std.ExtTreeMap.getElem?_map

lemma waiting_catchUp (feed picture : List ViewMessage) (link : Link) :
    (link.catchUp feed picture).waiting = link.waiting := by
  unfold Link.catchUp
  split <;> rfl

lemma inbox_catchUp (feed picture : List ViewMessage) (link : Link) :
    (link.catchUp feed picture).inbox = link.inbox := by
  unfold Link.catchUp
  split <;> rfl

lemma waitsFor_update : WaitsFor h.update.1 l t r ↔ WaitsFor h l t r := by
  rw [WaitsFor, getElem?_update]
  constructor
  · rintro ⟨link', hl', hw⟩
    obtain ⟨link, hl, rfl⟩ := Option.map_eq_some_iff.mp hl'
    exact ⟨link, hl, (waiting_catchUp _ _ link).symm.trans hw⟩
  · rintro ⟨link, hl, hw⟩
    exact ⟨_, Option.map_eq_some_iff.mpr ⟨link, hl, rfl⟩, (waiting_catchUp _ _ link).trans hw⟩

lemma held_update : Held h.update.1 l t r ↔ Held h l t r := or_congr waitsFor_update Iff.rfl

lemma LooksAt.frame_eq {f f' : Frame} {rest rest' : List Frame} {link' : Link}
    (hl : LooksAt h l link f rest) (hl' : LooksAt h l link' f' rest') : f = f' := by
  obtain rfl : link = link' := Option.some.inj (hl.found.symm.trans hl'.found)
  exact (List.cons.inj (hl.inbox.symm.trans hl'.inbox)).1

/-- An event leaves the controller alone and takes up no request, or it is an event of the
controller, which is a request where the hub takes one up. -/
lemma controller_of_reaction {e : HubEvent} {news : List HubOccurrence}
    (hr : Reaction h e h' news) :
    h'.controller = h.controller ∧ (∀ o, .controller o ∉ news) ∧ (∀ l r, ¬ Begins h e l r) ∨
      ∃ e' occurrences, h.controller.happen? e' = some (h'.controller, occurrences) ∧
        news = occurrences.map .controller ∧ (e = .controller e' ∨ ∃ r, e' = .request r) := by
  -- a link that looks at another frame, or at a text of another kind, takes up nothing
  have hother {l link f rest} (hl : LooksAt h l link f rest)
      (hf : ∀ s r, f = .text s → ViewRequest.ofText? s = some r → r.isDetached = true) (l' r) :
      ¬ Begins h (.look l) l' r := by
    rintro (he | ⟨he, link', s, rest', hl', hs, hr⟩)
    · cases he
    · cases he
      rw [hf s r (hl.frame_eq hl') hs] at hr
      cases hr
  have hnone (he : ∀ l, e ≠ .look l) (hd : ∀ l r, e ≠ .detach l r) (l r) : ¬ Begins h e l r := by
    rintro (he' | ⟨he', -⟩)
    · exact hd l r he'
    · exact he l he'
  cases hr with
  | driven hd =>
    obtain ⟨occurrences, hc, hnews⟩ := happen?_of_drive hd
    exact .inr ⟨_, occurrences, hc, hnews, .inl rfl⟩
  | attended hl hs hr hd =>
    obtain ⟨occurrences, hc, hnews⟩ := happen?_of_drive hd
    exact .inr ⟨_, occurrences, hc, hnews, .inr ⟨_, rfl⟩⟩
  | begun hd =>
    obtain ⟨occurrences, hc, hnews⟩ := happen?_of_drive hd
    exact .inr ⟨_, occurrences, hc, hnews, .inr ⟨_, rfl⟩⟩
  | handed hl hs hr =>
    refine .inl ⟨rfl, fun o ho => ?_, hother hl fun s r he hs' => ?_⟩
    · cases List.mem_singleton.mp ho
    · cases he
      cases hs.symm.trans hs'
      exact hr
  | unreadable hl hs =>
    refine .inl ⟨rfl, nofun, hother hl fun s r he hs' => ?_⟩
    cases he
    cases hs.symm.trans hs'
  | skipped hl => exact .inl ⟨rfl, nofun, hother hl nofun⟩
  | closed hl => exact .inl ⟨rfl, nofun, hother hl nofun⟩
  | connected | arrived | cut => exact .inl ⟨rfl, nofun, hnone nofun nofun⟩

/-- The controller of a run of the hub is at the end of a run of its own. -/
theorem Run.reachable {settings : ControllerSettings} {log : List HubEntry}
    (hr : Run (.ofSettings settings) log h) : Reachable settings h := by
  induction hr with
  | start => exact ⟨[], .start⟩
  | next _ _ hd ih =>
    obtain ⟨log, hrun⟩ := ih
    obtain ⟨b, looking, hreaction, rfl, -⟩ := perform?_eq_some hd
    rcases controller_of_reaction hreaction with ⟨hsame, -⟩ | ⟨e', occurrences, hc, -⟩
    · exact ⟨log, hsame ▸ hrun⟩
    · exact ⟨_, .next hrun hc⟩

end Hub
end SicDebugger
