import Mathlib.Data.List.Forall2
import Mathlib.Data.List.Nodup
import SicDebugger.Proofs.HubRun

/-!
# Accounts of links

Every text that a link looks at has a fate: it is no request, or its request was handed over, is
under way or was answered. The account of a link gives the fates of its texts one by one. It is kept
through whatever can happen to the link: a frame arrives or is looked at, a request that was handed
over begins, a request is answered.
-/

namespace SicDebugger

/-- The text of a frame. -/
def Frame.text? : Frame → Option String
  | text s => some s
  | _ => none

/-- The text that arrives at a link. -/
def HubEvent.text? (l : LinkId) : HubEvent → Option String
  | frame l' f => if l' = l then f.text? else none
  | _ => none

namespace Hub

/-! ## Fates of texts -/

/-- What has become of a text that a link has looked at. -/
inductive Fate where
  | unreadable
  | handed (r : ViewRequest)
  | underWay (t : TaskId) (r : ViewRequest)
  | answered (t : TaskId) (r : ViewRequest) (result : Except Error Reply)

/-- Why a request has failed, by its result. -/
def failure? (r : ViewRequest) : Except Error Reply → Option String
  | .error err => some err.message
  | .ok (.flag false) =>
    match r with
    | .selectListing file => some ("no listing for " ++ file)
    | _ => none
  | .ok _ => none

namespace Fate

/-- The refusals that there are to tell: one for a text that is no request, and one for a request
that has failed. -/
def refusals : Fate → List ViewMessage
  | unreadable => [.rejected "parse" "the text is no request"]
  | answered _ r result => (failure? r result).toList.map (.rejected r.action)
  | _ => []

/-- The task of a request that was taken up. -/
def task? : Fate → Option TaskId
  | underWay t _ => some t
  | answered t _ _ => some t
  | _ => none

/-- The request that was handed over. -/
def handed? : Fate → Option ViewRequest
  | handed r => some r
  | _ => none

end Fate

/-- The texts that have arrived at a link, the earliest first. -/
def receivedBy (l : LinkId) (log : List HubEntry) : List String :=
  log.reverse.filterMap fun x => x.event.text? l

/-- The requests that a link has handed over and that have not begun. -/
def handedBy (l : LinkId) (log : List HubEntry) : List ViewRequest :=
  ((handedIn log).filter (·.1 == l)).map Prod.snd

/-- A request of a link was taken up as a task. -/
def TakenUp (log : List HubEntry) (l : LinkId) (r : ViewRequest) (t : TaskId) : Prop :=
  ∃ x ∈ log, x.found.controller.nextTask = t ∧ Begins x.found x.event l r

/-- A task was answered. -/
def AnsweredIn (log : List HubEntry) (t : TaskId) (result : Except Error Reply) : Prop :=
  ∃ x ∈ log, .controller (.answered t result) ∈ x.news

/-- A text has a fate. -/
inductive Fate.Of (log : List HubEntry) (l : LinkId) : String → Fate → Prop where
  | unreadable {s} (hs : ViewRequest.ofText? s = none) : Fate.Of log l s .unreadable
  | handed {s r} (hs : ViewRequest.ofText? s = some r) (hr : r.isDetached = true) :
      Fate.Of log l s (.handed r)
  | underWay {s t r} (hs : ViewRequest.ofText? s = some r) (ht : TakenUp log l r t) :
      Fate.Of log l s (.underWay t r)
  | answered {s t r result} (hs : ViewRequest.ofText? s = some r) (ht : TakenUp log l r t)
      (ha : AnsweredIn log t result) : Fate.Of log l s (.answered t r result)

/-- The refusals that a link has told its view or keeps for it. -/
def refusalsOf (link : Link) : List ViewMessage :=
  (link.refusals ++ link.told).filter (·.isRejected)

/-- The account of a link: of the texts that have arrived it has looked at the first, and each of
these has a fate of its own. The requests that are under way are those that are held for the link,
those that have not begun are those that it has handed over, and the refusals that it has told its
view or keeps for it are those of the texts. -/
structure Account (log : List HubEntry) (h : Hub) (l : LinkId) (link : Link) (looked : List String)
    (fates : List Fate) : Prop where
  received : receivedBy l log = looked ++ link.inbox.filterMap Frame.text?
  each : List.Forall₂ (Fate.Of log l) looked fates
  distinct : (fates.filterMap Fate.task?).Nodup
  underWay : ∀ t r, .underWay t r ∈ fates ↔ Held h l t r
  handed : (fates.filterMap Fate.handed?).Perm (handedBy l log)
  reported : (refusalsOf link).Perm (fates.flatMap Fate.refusals)

variable {h h' b : Hub} {l k : LinkId} {t : TaskId} {r : ViewRequest} {link link' : Link}
  {log : List HubEntry} {x : HubEntry} {looked : List String} {fates : List Fate} {s : String}
  {result : Except Error Reply} {P : TaskId → ViewRequest → Prop}

/-! ## Logs that grow -/

lemma receivedBy_cons (x : HubEntry) (log : List HubEntry) :
    receivedBy l (x :: log) = receivedBy l log ++ (x.event.text? l).toList := by
  rw [receivedBy, List.reverse_cons, List.filterMap_append, receivedBy]
  rfl

/-- An event other than the begin of a request adds what it hands over. -/
lemma handedBy_cons (he : ∀ l r, x.event ≠ .detach l r) :
    handedBy l (x :: log) = handedBy l log ++
      ((x.news.filterMap HubOccurrence.handed?).filter (·.1 == l)).map Prod.snd := by
  have hx : handedIn (x :: log) = handedIn log ++ x.news.filterMap HubOccurrence.handed? := by
    obtain ⟨found, event, news⟩ := x
    cases event with
    | detach l r => exact absurd rfl (he l r)
    | _ => rfl
  rw [handedBy, hx, List.filter_append, List.map_append, handedBy]

/-- The begin of a request takes it from those that were handed over. -/
lemma handedBy_detach (he : x.event = .detach k r) (hmem : (k, r) ∈ handedIn log)
    (hn : x.news.filterMap HubOccurrence.handed? = []) :
    (handedBy l log).Perm ((if k = l then [r] else []) ++ handedBy l (x :: log)) := by
  have hx : handedIn (x :: log) = (handedIn log).erase (k, r) := by
    rw [handedIn, he, hn, List.append_nil]
  have hperm := ((List.perm_cons_erase hmem).filter (·.1 == l)).map Prod.snd
  rw [handedBy, handedBy, hx]
  refine hperm.trans (.of_eq ?_)
  split
  · next hkl =>
    rw [List.filter_cons_of_pos (by simpa using hkl)]
    rfl
  · next hkl =>
    rw [List.filter_cons_of_neg (by simpa using hkl)]
    rfl

lemma TakenUp.cons (ht : TakenUp log l r t) (x : HubEntry) : TakenUp (x :: log) l r t := by
  obtain ⟨y, hy, hbegins⟩ := ht
  exact ⟨y, List.mem_cons_of_mem _ hy, hbegins⟩

lemma AnsweredIn.cons (ha : AnsweredIn log t result) (x : HubEntry) :
    AnsweredIn (x :: log) t result := by
  obtain ⟨y, hy, hmem⟩ := ha
  exact ⟨y, List.mem_cons_of_mem _ hy, hmem⟩

lemma Fate.Of.cons {f : Fate} (hf : Fate.Of log l s f) (x : HubEntry) :
    Fate.Of (x :: log) l s f := by
  cases hf with
  | unreadable hs => exact .unreadable hs
  | handed hs hr => exact .handed hs hr
  | underWay hs ht => exact .underWay hs (ht.cons x)
  | answered hs ht ha => exact .answered hs (ht.cons x) (ha.cons x)

/-! ## Fates that change -/

/-- What holds pairwise holds when one element on the right is replaced by another. -/
lemma forall₂_replace {α β : Type} {R S : α → β → Prop} {y z : β} {before after : List β}
    {xs : List α} (h : List.Forall₂ R xs (before ++ y :: after)) (hmono : ∀ a b, R a b → S a b)
    (hone : ∀ a, R a y → S a z) : List.Forall₂ S xs (before ++ z :: after) := by
  induction before generalizing xs with
  | nil =>
    cases h with
    | cons hy hafter => exact .cons (hone _ hy) (hafter.imp fun _ _ => hmono _ _)
  | cons b before ih =>
    cases h with
    | cons hb hrest => exact .cons (hmono _ _ hb) (ih hrest)

section

variable {α β : Type} {g : α → Option β} {before after : List α} {a : α} {b : β}

lemma filterMap_middle_some (h : g a = some b) : (before ++ a :: after).filterMap g =
    before.filterMap g ++ b :: after.filterMap g := by
  rw [List.filterMap_append, List.filterMap_cons_some h]

lemma filterMap_middle_none (h : g a = none) : (before ++ a :: after).filterMap g =
    before.filterMap g ++ after.filterMap g := by
  rw [List.filterMap_append, List.filterMap_cons_none h]

end

lemma task?_underWay (t : TaskId) (r : ViewRequest) : (Fate.underWay t r).task? = some t := rfl

lemma task?_answered (t : TaskId) (r : ViewRequest) (result : Except Error Reply) :
    (Fate.answered t r result).task? = some t := rfl

lemma handed?_handed (r : ViewRequest) : (Fate.handed r).handed? = some r := rfl

/-- What is told of a result is the refusal of the request, where it has failed. -/
lemma filter_replies {c : Controller} (hplain : IsPlain c r result) :
    (replies r result).filter (·.isRejected) =
      (failure? r result).toList.map (.rejected r.action) := by
  cases result with
  | error err => rfl
  | ok reply =>
    cases reply with
    | done => rfl
    | picture messages =>
      obtain ⟨-, rfl⟩ := hplain messages rfl
      rfl
    | flag b =>
      cases b with
      | true => rfl
      | false => cases r <;> rfl

/-! ## Accounts that go on -/

section

variable (ha : Account log h l link looked fates)
include ha

/-- An event that is none of the link. -/
lemma Account.cons (hr : x.event.text? l = none)
    (hh : (handedBy l log).Perm (handedBy l (x :: log)))
    (hheld : ∀ t r, Held h' l t r ↔ Held h l t r) :
    Account (x :: log) h' l link looked fates where
  received := by
    rw [receivedBy_cons, hr]
    exact (List.append_nil _).trans ha.received
  each := ha.each.imp fun _ _ hf => hf.cons x
  distinct := ha.distinct
  underWay t r := (ha.underWay t r).trans (hheld t r).symm
  handed := ha.handed.trans hh
  reported := ha.reported

/-- The link has told its view what it kept, or what is no refusal. -/
lemma Account.relink
    (hi : link'.inbox.filterMap Frame.text? = link.inbox.filterMap Frame.text?)
    (hm : (refusalsOf link').Perm (refusalsOf link))
    (hheld : ∀ t r, Held h' l t r ↔ Held h l t r) : Account log h' l link' looked fates where
  received := ha.received.trans (congrArg (looked ++ ·) hi.symm)
  each := ha.each
  distinct := ha.distinct
  underWay t r := (ha.underWay t r).trans (hheld t r).symm
  handed := ha.handed
  reported := hm.trans ha.reported

/-- A frame arrives. -/
lemma Account.arrive {f : Frame} (he : x.event = .frame l f)
    (hn : x.news.filterMap HubOccurrence.handed? = [])
    (hheld : ∀ t r, Held h' l t r ↔ Held h l t r) :
    Account (x :: log) h' l { link with inbox := link.inbox ++ [f] } looked fates where
  received := by
    have ht : x.event.text? l = f.text? := by
      rw [he]
      exact if_pos rfl
    rw [receivedBy_cons, ht, ha.received, List.filterMap_append, List.append_assoc]
    rfl
  each := ha.each.imp fun _ _ hf => hf.cons x
  distinct := ha.distinct
  underWay t r := (ha.underWay t r).trans (hheld t r).symm
  handed := by
    rw [handedBy_cons (by rw [he]; exact fun _ _ => HubEvent.noConfusion), hn]
    exact ha.handed.trans (.of_eq (List.append_nil _).symm)
  reported := ha.reported

/-- The link looks at a text, which has a fate then. -/
lemma Account.look {f : Fate} {rest : List String}
    (he : x.event.text? l = none) (hi : link.inbox.filterMap Frame.text? = s :: rest)
    (hi' : link'.inbox.filterMap Frame.text? = rest) (hf : Fate.Of (x :: log) l s f)
    (hfresh : ∀ t, f.task? = some t → t ∉ fates.filterMap Fate.task?)
    (hheld : ∀ t r, Held h' l t r ↔ Held h l t r ∨ .underWay t r = f)
    (hh : (handedBy l log ++ f.handed?.toList).Perm (handedBy l (x :: log)))
    (hm : (refusalsOf link').Perm (f.refusals ++ refusalsOf link)) :
    Account (x :: log) h' l link' (looked ++ [s]) (fates ++ [f]) where
  received := by
    rw [receivedBy_cons, he, hi', ha.received, hi, List.append_assoc, List.append_assoc]
    exact congrArg (looked ++ ·) (List.append_nil _)
  each := List.rel_append (ha.each.imp fun _ _ hf => hf.cons x) (.cons hf .nil)
  distinct := by
    rw [List.filterMap_append]
    cases htask : f.task? with
    | none =>
      rw [List.filterMap_cons_none htask]
      exact (List.append_nil _).symm ▸ ha.distinct
    | some t =>
      rw [List.filterMap_cons_some htask]
      exact List.Nodup.append ha.distinct (List.nodup_singleton t)
        (List.disjoint_singleton.mpr (hfresh t htask))
  underWay t r := by
    rw [List.mem_append, List.mem_singleton, ha.underWay, hheld]
  handed := by
    have hone : [f].filterMap Fate.handed? = f.handed?.toList := by
      cases f <;> rfl
    rw [List.filterMap_append, hone]
    exact (ha.handed.append_right _).trans hh
  reported := by
    have hone : [f].flatMap Fate.refusals = f.refusals := List.append_nil _
    rw [List.flatMap_append, hone]
    exact hm.trans ((ha.reported.append_left _).trans List.perm_append_comm)

end

/-- A request that the link has handed over begins. -/
lemma Account.begin (ha : Account log h l link looked fates) (he : x.event = .detach l r)
    (hmem : (l, r) ∈ handedIn log) (hn : x.news.filterMap HubOccurrence.handed? = [])
    (ht : TakenUp (x :: log) l r t) (hfresh : t ∉ fates.filterMap Fate.task?)
    (hheld : ∀ t' r', Held h' l t' r' ↔ Held h l t' r' ∨ t' = t ∧ r' = r) :
    ∃ fates', Account (x :: log) h' l link looked fates' := by
  have hperm := handedBy_detach (l := l) he hmem hn
  rw [if_pos rfl] at hperm
  -- one of the texts made this request, and no other has begun it
  obtain ⟨f, hf, hone⟩ := List.mem_filterMap.mp
    (ha.handed.mem_iff.mpr (hperm.mem_iff.mpr List.mem_cons_self))
  obtain rfl : f = .handed r := by
    cases f with
    | handed r' =>
      cases hone
      rfl
    | unreadable | underWay | answered => cases hone
  -- the fate of this one text changes in its place
  obtain ⟨before, after, rfl⟩ := List.append_of_mem hf
  refine ⟨before ++ .underWay t r :: after, ?_, ?_, ?_, fun t' r' => ?_, ?_, ?_⟩
  · rw [receivedBy_cons, he]
    exact (List.append_nil _).trans ha.received
  · refine forall₂_replace ha.each (fun _ _ hf => hf.cons x) fun s hs => ?_
    cases hs with
    | handed hs hr => exact .underWay hs ht
  · have hdistinct := ha.distinct
    rw [filterMap_middle_none rfl] at hdistinct hfresh
    rw [filterMap_middle_some (task?_underWay t r), List.nodup_middle]
    exact List.nodup_cons.mpr ⟨hfresh, hdistinct⟩
  · rw [hheld, ← ha.underWay]
    simp only [List.mem_append, List.mem_cons, Fate.underWay.injEq, reduceCtorEq, false_or]
    tauto
  · have hall := ha.handed.trans hperm
    rw [filterMap_middle_some (handed?_handed r)] at hall
    rw [filterMap_middle_none rfl]
    exact (List.perm_middle.symm.trans hall).cons_inv
  · have hreported := ha.reported
    rw [List.flatMap_append, List.flatMap_cons] at hreported ⊢
    exact hreported

/-- A request that is held for the link is answered. -/
lemma Account.answer {c : Controller} (ha : Account log h l link looked fates)
    (hheld : Held h l t r) (hanswered : AnsweredIn log t result) (hplain : IsPlain c r result)
    (hreported : Reported r result link link')
    (hheld' : ∀ t' r', Held h' l t' r' ↔ Held h l t' r' ∧ t' ≠ t) :
    ∃ fates', Account log h' l link' looked fates' := by
  obtain ⟨before, after, rfl⟩ := List.append_of_mem ((ha.underWay t r).mpr hheld)
  have hdistinct := ha.distinct
  rw [filterMap_middle_some (task?_underWay t r)] at hdistinct
  -- the other texts have other tasks
  have hother {t' r'} (hmem : .underWay t' r' ∈ before ++ after) : t' ≠ t := by
    rintro rfl
    rw [List.nodup_middle, ← List.filterMap_append] at hdistinct
    exact (List.nodup_cons.mp hdistinct).1 (List.mem_filterMap.mpr ⟨_, hmem, rfl⟩)
  refine ⟨before ++ .answered t r result :: after, ?_, ?_, ?_, fun t' r' => ?_, ?_, ?_⟩
  · rw [hreported.inbox]
    exact ha.received
  · refine forall₂_replace ha.each (fun _ _ hf => hf) fun s hs => ?_
    cases hs with
    | underWay hs ht => exact .answered hs ht hanswered
  · rw [filterMap_middle_some (task?_answered t r result)]
    exact hdistinct
  · rw [hheld', ← ha.underWay]
    simp only [List.mem_append, List.mem_cons, Fate.underWay.injEq, reduceCtorEq, false_or]
      at hother ⊢
    constructor
    · exact fun hmem => ⟨hmem.imp_right .inr, hother hmem⟩
    · rintro ⟨hmem | ⟨rfl, -⟩ | hmem, hne⟩
      · exact .inl hmem
      · exact absurd rfl hne
      · exact .inr hmem
  · have hhanded := ha.handed
    rw [filterMap_middle_none rfl] at hhanded ⊢
    exact hhanded
  · have hold := ha.reported
    have hmessages := hreported.messages.filter (·.isRejected)
    rw [List.filter_append (replies r result), filter_replies hplain] at hmessages
    rw [List.flatMap_append, List.flatMap_cons] at hold ⊢
    refine hmessages.trans ((hold.append_left _).trans ?_)
    exact List.perm_append_comm_assoc _ _ _

end Hub
end SicDebugger
