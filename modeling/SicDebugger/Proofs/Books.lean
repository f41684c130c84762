import SicDebugger.Proofs.Accounts

/-!
# Books of the hub

The books of the hub hold an account of every open link. They are right at the start and stay right
in every event: each kind of event changes the account of one link, or of none, and leaves those of
the others as they were.
-/

namespace SicDebugger
namespace Hub

variable {h h' b : Hub} {l k : LinkId} {t : TaskId} {r : ViewRequest} {link link' : Link}
  {log : List HubEntry} {x : HubEntry} {looked : List String} {fates : List Fate} {s : String}
  {result : Except Error Reply} {P : TaskId → ViewRequest → Prop}

/-! ## The books of the hub -/

/-- The books of the hub are right: all views are told no refusals, each open link has an account,
a number that is still free has nothing to its account, and what is held satisfies a condition and
was not answered in the past. -/
structure Books (P : TaskId → ViewRequest → Prop) (past log : List HubEntry) (h : Hub) : Prop where
  feed : ∀ m ∈ h.feed, m.isRejected = false
  links : ∀ l link, h.links[l]? = some link → l < h.nextLink
  fresh : ∀ l, h.nextLink ≤ l →
    receivedBy l log = [] ∧ handedBy l log = [] ∧ ∀ t r, ¬ Held h l t r
  owned : h.Owned P
  unanswered : ∀ l t r result, Held h l t r → ¬ AnsweredIn past t result
  accounts : ∀ l link, h.links[l]? = some link → ∃ looked fates, Account log h l link looked fates

variable {past past' : List HubEntry} {Q : TaskId → ViewRequest → Prop}

/-- An event of one link leaves the accounts of the others alone. -/
lemma Books.change (hb : Books P past log h) (hl : l < h.nextLink)
    (hlinks : ∀ k link', b.links[k]? = some link' → k ≠ l ∧ h.links[k]? = some link' ∨
      k = l ∧ ∃ looked fates, Account (x :: log) b l link' looked fates)
    (hheld : ∀ k t r, k ≠ l → (Held b k t r ↔ Held h k t r))
    (hreceived : ∀ k, k ≠ l → x.event.text? k = none)
    (hhanded : ∀ k, k ≠ l → (handedBy k log).Perm (handedBy k (x :: log)))
    (hfeed : b.feed = h.feed) (hnext : b.nextLink = h.nextLink) (ho : b.Owned Q)
    (hu : ∀ l t r result, Held b l t r → ¬ AnsweredIn past' t result) :
    Books Q past' (x :: log) b where
  feed := hfeed ▸ hb.feed
  links k link' hk := by
    rw [hnext]
    rcases hlinks k link' hk with ⟨-, hk⟩ | ⟨rfl, -⟩
    · exact hb.links k link' hk
    · exact hl
  fresh k hk := by
    rw [hnext] at hk
    have hne : k ≠ l := fun e => absurd hl (Nat.not_lt.mpr (e ▸ hk))
    obtain ⟨hr, hh, hn⟩ := hb.fresh k hk
    refine ⟨?_, ?_, fun t r hheld' => hn t r ((hheld k t r hne).mp hheld')⟩
    · rw [receivedBy_cons, hr, hreceived k hne]
      rfl
    · exact List.nil_perm.mp (hh ▸ hhanded k hne)
  owned := ho
  unanswered := hu
  accounts k link' hk := by
    rcases hlinks k link' hk with ⟨hne, hk⟩ | ⟨rfl, ha⟩
    · obtain ⟨looked, fates, ha⟩ := hb.accounts k link' hk
      exact ⟨looked, fates, ha.cons (hreceived k hne) (hhanded k hne) fun t r => hheld k t r hne⟩
    · exact ha

/-- An event that is none of any link. -/
lemma Books.cons (hb : Books P past log h) (hreceived : ∀ k, x.event.text? k = none)
    (hhanded : ∀ k, handedBy k (x :: log) = handedBy k log) (ho : h.Owned Q) :
    Books Q past (x :: log) h where
  feed := hb.feed
  links := hb.links
  fresh l hl := by
    obtain ⟨hr, hh, hn⟩ := hb.fresh l hl
    refine ⟨?_, (hhanded l).trans hh, hn⟩
    rw [receivedBy_cons, hr, hreceived]
    rfl
  owned := ho
  unanswered := hb.unanswered
  accounts l link hl := by
    obtain ⟨looked, fates, ha⟩ := hb.accounts l link hl
    exact ⟨looked, fates, ha.cons (hreceived l) (.of_eq (hhanded l).symm) fun _ _ => Iff.rfl⟩

/-- The books stay right where what is held satisfies another condition, over another past. -/
lemma Books.goOn (hb : Books P past log h)
    (hheld : ∀ l t r, Held h l t r → Q t r ∧ ∀ result, ¬ AnsweredIn past' t result) :
    Books Q past' log h :=
  { hb with
    owned := ⟨fun l t r hh => (hheld l t r hh).1, hb.owned.unique, hb.owned.apart⟩
    unanswered := fun l t r result hh => (hheld l t r hh).2 result }

section

variable (hwaits : ∀ k t r, WaitsFor b k t r → WaitsFor h k t r)
  (hdetached : ∀ (t : TaskId) (held : LinkId × ViewRequest),
    b.detached[t]? = some held → h.detached[t]? = some held)
include hwaits hdetached

/-- Where no more is held than before, each request is held for one link as before. -/
lemma Owned.keep (ho : h.Owned P) : b.Owned P := by
  have hheld {k t r} (hh : Held b k t r) : Held h k t r := hh.imp (hwaits k t r) (hdetached t _)
  refine ⟨fun k t r hh => ho.satisfied k t r (hheld hh),
    fun k k' t r r' h₁ h₂ => ho.unique k k' t r r' (hheld h₁) (hheld h₂), fun k t r hw => ?_⟩
  have hnone := ho.apart k t r (hwaits k t r hw)
  refine Option.eq_none_iff_forall_ne_some.mpr fun held hd => ?_
  cases hnone.symm.trans (hdetached t held hd)

/-- The books stay right when no more is held than before and the open links have accounts. -/
lemma Books.keep (hb : Books P past log h) (hfeed : b.feed = h.feed)
    (hnext : h.nextLink ≤ b.nextLink)
    (hlinks : ∀ (k : LinkId) (link : Link), b.links[k]? = some link →
      k < b.nextLink ∧ ∃ looked fates, Account log b k link looked fates) :
    Books P past log b := by
  have hheld {k t r} (hh : Held b k t r) : Held h k t r := hh.imp (hwaits k t r) (hdetached t _)
  exact {
    feed := hfeed ▸ hb.feed
    links := fun k link hk => (hlinks k link hk).1
    fresh := fun k hk => by
      obtain ⟨hr, hh, hn⟩ := hb.fresh k (Nat.le_trans hnext hk)
      exact ⟨hr, hh, fun t r h' => hn t r (hheld h')⟩
    owned := hb.owned.keep hwaits hdetached
    unanswered := fun k t r result hh => hb.unanswered k t r result (hheld hh)
    accounts := fun k link hk => (hlinks k link hk).2 }

end

/-- The books stay right when the controller moves on and all views are told no refusals. -/
lemma Books.withFeed {feed : List ViewMessage} (hb : Books P past log h)
    (hfeed : ∀ m ∈ feed, m.isRejected = false) (c : Controller) :
    Books P past log { h with controller := c, feed } :=
  { hb with
    feed := hfeed
    owned := ⟨hb.owned.satisfied, hb.owned.unique, hb.owned.apart⟩
    accounts := fun l link hl => by
      obtain ⟨looked, fates, ha⟩ := hb.accounts l link hl
      exact ⟨looked, fates, ha.relink rfl (.refl _) fun _ _ => Iff.rfl⟩ }

/-- The books stay right when the answer to a request that is held is passed on. -/
lemma Books.answer {c : Controller} (hb : Books P past log h) (hp : Passed h t result h')
    (hheld : Held h l t r) (hin : AnsweredIn log t result) (hplain : IsPlain c r result) :
    Books P past log h' := by
  obtain ⟨-, hnext, hfeed⟩ := hp.rest
  have hheld' {k t' r'} : Held h' k t' r' ↔ Held h k t' r' ∧ t' ≠ t := hp.held hb.owned
  refine hb.keep (fun k t' r' hw => ((hp.waitsFor hb.owned).mp hw).1)
    (fun t' held hd => ((hp.detached_iff hb.owned).mp hd).1) hfeed (Nat.le_of_eq hnext.symm)
    fun k link' hk => ?_
  obtain ⟨link, hold, hcase⟩ := hp.links hb.owned hheld hk
  refine ⟨hnext ▸ hb.links k link hold, ?_⟩
  obtain ⟨looked, fates, ha⟩ := hb.accounts k link hold
  rcases hcase with ⟨hne, rfl⟩ | ⟨rfl, hreported⟩
  · -- the request was held for another link
    refine ⟨looked, fates, ha.relink rfl (.refl _) fun t' r' => hheld'.trans ?_⟩
    refine ⟨And.left, fun hh => ⟨hh, ?_⟩⟩
    rintro rfl
    exact hne (hb.owned.unique _ _ _ _ _ hheld hh).1
  · obtain ⟨fates', ha'⟩ := ha.answer hheld hin hplain hreported fun _ _ => hheld'
    exact ⟨looked, fates', ha'⟩

/-- What was answered was answered before, or in the last event. -/
lemma answeredIn_cons {occurrences : List Occurrence}
    (hx : ∀ o, .controller o ∈ x.news → o ∈ occurrences) (ha : AnsweredIn (x :: log) t result) :
    .answered t result ∈ occurrences ∨ AnsweredIn log t result := by
  obtain ⟨y, hy, hmem⟩ := ha
  rcases List.mem_cons.mp hy with rfl | hy
  · exact .inl (hx _ hmem)
  · exact .inr ⟨y, hy, hmem⟩

lemma mem_of_controller_mem {occurrences : List Occurrence} {looking : List LinkId} {o : Occurrence}
    (ho : HubOccurrence.controller o ∈
      occurrences.map .controller ++ looking.map .waitingFrame) : o ∈ occurrences := by
  rcases List.mem_append.mp ho with ho | ho
  · obtain ⟨_, ho, heq⟩ := List.mem_map.mp ho
    cases heq
    exact ho
  · obtain ⟨_, _, heq⟩ := List.mem_map.mp ho
    cases heq

/-- The books stay right when the controller is driven. -/
lemma Books.drive {settings : ControllerSettings} {e : Event} {news : List HubOccurrence}
    {looking : List LinkId} (hd : h.drive? e = some (h', news)) (hr : Reachable settings h)
    (hb : Books (Awaited h.controller e) log (x :: log) h)
    (hx : x.news = news ++ looking.map .waitingFrame) :
    Books (Pending h'.controller) (x :: log) (x :: log) h' := by
  obtain ⟨c', occurrences, feed, hc, rfl, hfeed, hdriven⟩ := driven_of_drive hr hb.owned hd
  have hfed : Books (Awaited h.controller e) log (x :: log)
      { h with controller := c', feed := feed ++ h.feed } := by
    refine hb.withFeed (fun m hm => ?_) c'
    rcases List.mem_append.mp hm with hm | hm
    · exact hfeed m hm
    · exact hb.feed m hm
  -- what goes on was answered neither before nor now
  have hgoes {l t r} (hheld : Held h l t r) (hgo : GoesOn c' occurrences t r) :
      Pending c' t r ∧ ∀ result, ¬ AnsweredIn (x :: log) t result := by
    refine ⟨hgo.1, fun result ha => ?_⟩
    rcases answeredIn_cons (fun o ho => mem_of_controller_mem (hx ▸ ho)) ha with ha | ha
    · exact hgo.2 result ha
    · exact hb.unanswered l t r result hheld ha
  cases hdriven with
  | goesOn hall => exact hfed.goOn fun l t r hheld => hgoes hheld (hall l t r hheld)
  | @passes k t r result _ hheld hanswered hplain hp hothers =>
    have hin : AnsweredIn (x :: log) t result :=
      ⟨x, List.mem_cons_self, hx ▸ List.mem_append_left _ (List.mem_map_of_mem hanswered)⟩
    -- what is still held after the answer is what else was held before it
    refine (hfed.answer hp hheld hin hplain).goOn fun l' t' r' hh => ?_
    obtain ⟨hh, hne⟩ := (hp.held hfed.owned).mp hh
    rw [hp.rest.1]
    exact hgoes hh (hothers l' t' r' hh hne)

/-! ## Links that are closed -/

/-- The books stay right when a link is closed. -/
lemma Books.erase (hb : Books P past log h) (l : LinkId)
    (closed : List (LinkId × List ViewMessage)) :
    Books P past log { h with links := h.links.erase l, closed } := by
  have hlink {k : LinkId} {link : Link} (hk : (h.links.erase l)[k]? = some link) :
      h.links[k]? = some link := by
    rw [Std.ExtTreeMap.getElem?_erase] at hk
    split at hk
    · cases hk
    · exact hk
  have hne {k : LinkId} {link : Link} (hk : (h.links.erase l)[k]? = some link) : k ≠ l := by
    rintro rfl
    rw [Std.ExtTreeMap.getElem?_erase_self] at hk
    cases hk
  have hwaits (k t r) (hw : WaitsFor { h with links := h.links.erase l, closed } k t r) :
      WaitsFor h k t r := by
    obtain ⟨link, hk, hwaiting⟩ := hw
    exact ⟨link, hlink hk, hwaiting⟩
  refine hb.keep hwaits (fun _ _ hd => hd) rfl (Nat.le_refl _) fun k link hk => ?_
  refine ⟨hb.links k link (hlink hk), ?_⟩
  obtain ⟨looked, fates, ha⟩ := hb.accounts k link (hlink hk)
  refine ⟨looked, fates, ha.relink rfl (.refl _) fun t r => or_congr_left ⟨hwaits k t r, ?_⟩⟩
  rintro ⟨link', hk', hw⟩
  refine ⟨link', ?_, hw⟩
  show (h.links.erase l)[k]? = _
  rw [Std.ExtTreeMap.getElem?_erase, if_neg, hk']
  rw [Nat.compare_eq_eq]
  exact (hne hk).symm

/-! ## Views that are brought up to date -/

lemma isRejected_picture (c : Controller) : ∀ m ∈ c.picture, m.isRejected = false := by
  simp [Controller.picture, ViewMessage.picture, ViewMessage.isRejected, ViewMessage.ofRegisters,
    ViewMessage.ofListings, ViewMessage.ofWatches, ViewMessage.ofMemory, ViewMessage.ofErrors]

lemma isRejected_missed {feed picture : List ViewMessage} {place : Nat}
    (hfeed : ∀ m ∈ feed, m.isRejected = false) (hpicture : ∀ m ∈ picture, m.isRejected = false) :
    ∀ m ∈ Link.missed feed picture place, m.isRejected = false := by
  intro m hm
  unfold Link.missed at hm
  dsimp only at hm
  split at hm
  · rcases List.mem_append.mp hm with hm | hm
    · exact hpicture m hm
    · exact hfeed m (List.mem_of_mem_take (List.mem_reverse.mp hm))
  · exact hfeed m (List.mem_of_mem_take (List.mem_reverse.mp hm))

/-- A view that is told what it has missed is told no refusals but those that were kept for it. -/
lemma refusalsOf_catchUp {feed picture : List ViewMessage}
    (hfeed : ∀ m ∈ feed, m.isRejected = false) (hpicture : ∀ m ∈ picture, m.isRejected = false)
    (link : Link) : (refusalsOf (link.catchUp feed picture)).Perm (refusalsOf link) := by
  unfold Link.catchUp
  split
  · have hmissed : (Link.missed feed picture link.place).filter (·.isRejected) = [] :=
      List.filter_eq_nil_iff.mpr fun m hm => by simp [isRejected_missed hfeed hpicture m hm]
    show (((Link.missed feed picture link.place ++ link.refusals).reverse ++ link.told).filter
      (·.isRejected)).Perm _
    rw [refusalsOf, List.filter_append, List.filter_append, List.filter_reverse, List.filter_append,
      hmissed, List.nil_append]
    exact (List.reverse_perm _).append_right _
  · exact .refl _

/-- The books stay right when the views are brought up to date. -/
lemma Books.update (hb : Books P past log h) : Books P past log h.update.1 := by
  refine hb.keep (fun _ _ _ => waitsFor_update.mp) (fun _ _ hd => hd) rfl (Nat.le_refl _)
    fun k link' hk => ?_
  rw [getElem?_update] at hk
  obtain ⟨link, hold, rfl⟩ := Option.map_eq_some_iff.mp hk
  refine ⟨hb.links k link hold, ?_⟩
  obtain ⟨looked, fates, ha⟩ := hb.accounts k link hold
  exact ⟨looked, fates, ha.relink (by rw [inbox_catchUp])
    (refusalsOf_catchUp hb.feed (isRejected_picture _) link) fun _ _ => held_update⟩

/-! ## Numbers of tasks -/

/-- The requests in a log have numbers below the next one. -/
structure Numbered (log : List HubEntry) (n : TaskId) : Prop where
  takenUp : ∀ l r t, TakenUp log l r t → t < n
  answered : ∀ t result, AnsweredIn log t result → t < n

/-- The requests in the log of a run have numbers that are used up. -/
theorem Run.numbered {settings : ControllerSettings} (hr : Run (.ofSettings settings) log h) :
    Numbered log h.controller.nextTask := by
  induction hr with
  | start =>
    refine ⟨fun l r t ht => ?_, fun t result ha => ?_⟩
    · obtain ⟨_, hx, _⟩ := ht
      cases hx
    · obtain ⟨_, hx, _⟩ := ha
      cases hx
  | @next log h h' e news hrun hlegal hd ih =>
    obtain ⟨b, looking, hreaction, rfl, rfl⟩ := perform?_eq_some hd
    obtain ⟨clog, hreach⟩ := hrun.reachable
    have hs := (Controller.sound_of_run hreach).forget []
    show Numbered _ b.controller.nextTask
    rcases controller_of_reaction hreaction with
      ⟨hsame, hnone, hbegins⟩ | ⟨e', occurrences, hc, rfl, he⟩
    · rw [hsame]
      refine ⟨fun l r t ht => ?_, fun t result ha => ?_⟩
      · obtain ⟨y, hy, hnext, hb⟩ := ht
        rcases List.mem_cons.mp hy with rfl | hy
        · exact absurd hb (hbegins l r)
        · exact ih.takenUp l r t ⟨y, hy, hnext, hb⟩
      · obtain ⟨y, hy, hmem⟩ := ha
        rcases List.mem_cons.mp hy with rfl | hy
        · rcases List.mem_append.mp hmem with hmem | hmem
          · exact absurd hmem (hnone _)
          · obtain ⟨_, _, heq⟩ := List.mem_map.mp hmem
            cases heq
        · exact ih.answered t result ⟨y, hy, hmem⟩
    · obtain ⟨d, hperform, hcontroller, -⟩ := Controller.happen?_eq_some hc
      have hle : h.controller.nextTask ≤ b.controller.nextTask := by
        rw [hcontroller]
        exact (hs.isBy (d := d) hperform).nextTask
      have hworker : e'.worker h.controller < b.controller.nextTask := by
        rw [hcontroller]
        exact hs.worker_lt (d := d) hperform
      refine ⟨fun l r t ht => ?_, fun t result ha => ?_⟩
      · obtain ⟨y, hy, hnext, hb⟩ := ht
        rcases List.mem_cons.mp hy with rfl | hy
        · rcases he with rfl | ⟨r', rfl⟩
          · rcases hb with hb | ⟨hb, -⟩ <;> cases hb
          · exact hnext ▸ hworker
        · exact Nat.lt_of_lt_of_le (ih.takenUp l r t ⟨y, hy, hnext, hb⟩) hle
      · rcases answeredIn_cons (fun o ho => mem_of_controller_mem ho) ha with ha | ha
        · have heq : t = e'.worker h.controller :=
            worker_of_mem_answers hreach hc (mem_answers.mpr ha)
          exact heq ▸ hworker
        · exact Nat.lt_of_lt_of_le (ih.answered t result ha) hle

/-- The tasks of an account are among the numbers that are used up. -/
lemma Account.task_lt {n : TaskId} (ha : Account log h l link looked fates) (hn : Numbered log n) :
    ∀ t ∈ fates.filterMap Fate.task?, t < n := by
  intro t ht
  obtain ⟨f, hf, htask⟩ := List.mem_filterMap.mp ht
  obtain ⟨i, hi, rfl⟩ := List.mem_iff_getElem.mp hf
  have hof := ha.each.get (by rw [ha.each.length_eq]; exact hi) hi
  rw [List.get_eq_getElem, List.get_eq_getElem] at hof
  generalize fates[i] = f at hof htask
  cases hof with
  | unreadable | handed => cases htask
  | underWay _ ht =>
    cases htask
    exact hn.takenUp _ _ _ ht
  | answered _ ht _ =>
    cases htask
    exact hn.takenUp _ _ _ ht

/-! ## Events that only concern links -/

lemma filterMap_handed?_waiting (news : List HubOccurrence) (waiting : List LinkId) :
    (news ++ waiting.map HubOccurrence.waitingFrame).filterMap HubOccurrence.handed? =
      news.filterMap HubOccurrence.handed? := by
  have hnone : (waiting.map HubOccurrence.waitingFrame).filterMap HubOccurrence.handed? = [] :=
    List.filterMap_eq_nil_iff.mpr fun o ho => by
      obtain ⟨_, _, rfl⟩ := List.mem_map.mp ho
      rfl
  rw [List.filterMap_append, hnone, List.append_nil]

lemma filterMap_handed?_controller (occurrences : List Occurrence) :
    (occurrences.map HubOccurrence.controller).filterMap HubOccurrence.handed? = [] :=
  List.filterMap_eq_nil_iff.mpr fun o ho => by
    obtain ⟨_, _, rfl⟩ := List.mem_map.mp ho
    rfl

/-- Where the controller does nothing, nothing is answered. -/
lemma Books.remember (hb : Books P log (x :: log) h) (hquiet : ∀ o, .controller o ∉ x.news) :
    Books P (x :: log) (x :: log) h := by
  refine hb.goOn fun l t r hh => ⟨hb.owned.satisfied l t r hh, fun result ha => ?_⟩
  obtain ⟨y, hy, hmem⟩ := ha
  rcases List.mem_cons.mp hy with rfl | hy
  · exact hquiet _ hmem
  · exact hb.unanswered l t r result hh ⟨y, hy, hmem⟩

/-- The books stay right when a link changes that goes on to wait as it did. -/
lemma Books.withLink {f : Link → Link} (hb : Books P log log h) (hl : h.links[l]? = some link)
    (hf : ∀ link, (f link).waiting = link.waiting)
    (ha : (∀ t r, Held (h.withLink l f) l t r ↔ Held h l t r) → ∀ looked fates,
      Account log h l link looked fates →
        ∃ looked fates, Account (x :: log) (h.withLink l f) l (f link) looked fates)
    (hreceived : ∀ k, k ≠ l → x.event.text? k = none)
    (hhanded : ∀ k, k ≠ l → (handedBy k log).Perm (handedBy k (x :: log)))
    (hquiet : ∀ o, .controller o ∉ x.news) :
    Books P (x :: log) (x :: log) (h.withLink l f) := by
  have hwaits {k t r} : WaitsFor (h.withLink l f) k t r ↔ WaitsFor h k t r :=
    waitsFor_withLink_of_eq hf
  have hheld {k t r} : Held (h.withLink l f) k t r ↔ Held h k t r := or_congr hwaits Iff.rfl
  have howned : (h.withLink l f).Owned P :=
    hb.owned.keep (fun _ _ _ => hwaits.mp) fun _ _ hd => hd
  have hunanswered (k t r result) (hh : Held (h.withLink l f) k t r) :=
    hb.unanswered k t r result (hheld.mp hh)
  refine (hb.change (hb.links l link hl) (fun k link' hk => ?_) (fun k t r _ => hheld) hreceived
    hhanded rfl rfl howned hunanswered).remember hquiet
  by_cases hne : k = l
  · subst hne
    rw [getElem?_withLink_self, hl] at hk
    cases hk
    obtain ⟨looked, fates, haccount⟩ := hb.accounts k link hl
    exact .inr ⟨rfl, ha (fun _ _ => hheld) looked fates haccount⟩
  · rw [getElem?_withLink_of_ne hne] at hk
    exact .inl ⟨hne, hk⟩

/-- The books stay right when a link sets a frame aside that is no text. -/
lemma Books.setAside {f : Frame} {rest : List Frame} (hb : Books P log log h)
    (hl : LooksAt h l link f rest) (hf : f.text? = none) (he : x.event = .look l)
    (hhanded : ∀ k, handedBy k (x :: log) = handedBy k log) (hquiet : ∀ o, .controller o ∉ x.news) :
    Books P (x :: log) (x :: log) (h.withLink l fun link => { link with inbox := rest }) := by
  have hreceived (k) : x.event.text? k = none := by
    rw [he]
    rfl
  refine hb.withLink hl.found (fun _ => rfl) (fun hheld looked fates ha => ?_)
    (fun k _ => hreceived k) (fun k _ => .of_eq (hhanded k).symm) hquiet
  have ha' : Account (x :: log) h l link looked fates :=
    ha.cons (hreceived l) (.of_eq (hhanded l).symm) fun _ _ => Iff.rfl
  refine ⟨looked, fates, ha'.relink ?_ (.refl _) hheld⟩
  rw [hl.inbox, List.filterMap_cons_none hf]

/-- The books stay right when a link looks at a text that is not taken up. -/
lemma Books.lookAt {f : Fate} {rest : List Frame} {g : Link → Link} (hb : Books P log log h)
    (hl : LooksAt h l link (.text s) rest) (he : x.event = .look l)
    (hg : ∀ link, (g link).waiting = link.waiting) (hi : (g link).inbox = rest)
    (hf : Fate.Of (x :: log) l s f) (htask : f.task? = none)
    (hmine : (handedBy l log ++ f.handed?.toList).Perm (handedBy l (x :: log)))
    (hothers : ∀ k, k ≠ l → (handedBy k log).Perm (handedBy k (x :: log)))
    (hm : (refusalsOf (g link)).Perm (f.refusals ++ refusalsOf link))
    (hquiet : ∀ o, .controller o ∉ x.news) :
    Books P (x :: log) (x :: log) (h.withLink l g) := by
  have hreceived (k) : x.event.text? k = none := by
    rw [he]
    rfl
  refine hb.withLink hl.found hg (fun hheld looked fates ha => ?_) (fun k _ => hreceived k) hothers
    hquiet
  have hnew (t r) : Held (h.withLink l g) l t r ↔ Held h l t r ∨ .underWay t r = f := by
    refine (hheld t r).trans (or_iff_left ?_).symm
    rintro rfl
    cases htask
  exact ⟨_, _, ha.look (hreceived l) (by rw [hl.inbox]; rfl) (by rw [hi]) hf
    (fun t ht => nomatch htask.symm.trans ht) hnew hmine hm⟩

/-- The books stay right when a view comes. -/
lemma Books.connect (hb : Books P past log h) : Books P past log { h with
    links := h.links.insert h.nextLink
      (({ place := h.feed.length } : Link).tell h.controller.picture)
    nextLink := h.nextLink + 1 } := by
  generalize hb' : ({ h with
    links := h.links.insert h.nextLink
      (({ place := h.feed.length } : Link).tell h.controller.picture)
    nextLink := h.nextLink + 1 } : Hub) = b
  have hlink {k : LinkId} : b.links[k]? = if h.nextLink = k
      then some (({ place := h.feed.length } : Link).tell h.controller.picture)
      else h.links[k]? := by
    rw [← hb', Std.ExtTreeMap.getElem?_insert]
    simp only [Nat.compare_eq_eq]
  have hold {k : LinkId} {link : Link} (hk : h.links[k]? = some link) :
      b.links[k]? = some link := by
    rw [hlink, if_neg, hk]
    rintro rfl
    exact Nat.lt_irrefl _ (hb.links _ link hk)
  have hwaits {k t r} : WaitsFor b k t r ↔ WaitsFor h k t r := by
    constructor
    · rintro ⟨link, hk, hw⟩
      rw [hlink] at hk
      split at hk
      · cases hk
        cases hw
      · exact ⟨link, hk, hw⟩
    · rintro ⟨link, hk, hw⟩
      exact ⟨link, hold hk, hw⟩
  have hheld {k t r} : Held b k t r ↔ Held h k t r := by
    rw [Held, hwaits, ← hb']
    rfl
  have hnext : b.nextLink = h.nextLink + 1 := hb' ▸ rfl
  have hdetached : b.detached = h.detached := hb' ▸ rfl
  refine hb.keep (fun _ _ _ => hwaits.mp) (fun _ _ hd => hdetached ▸ hd) (hb' ▸ rfl)
    (hnext ▸ Nat.le_succ _) fun k link hk => ?_
  rw [hlink] at hk
  rw [hnext]
  split at hk
  · next hnew =>
    cases hk
    -- the new link has an empty account, since nothing stands against its number
    obtain ⟨hr, hh, hn⟩ := hb.fresh k (Nat.le_of_eq hnew)
    refine ⟨hnew ▸ Nat.lt_succ_self _, [], [], hr, .nil, .nil, fun t r => ?_, .of_eq hh.symm,
      .of_eq (List.filter_eq_nil_iff.mpr fun m hm => ?_)⟩
    · exact iff_of_false List.not_mem_nil fun hh => hn t r (hheld.mp hh)
    · have hm : m ∈ h.controller.picture.reverse ++ [] := hm
      rw [List.append_nil, List.mem_reverse] at hm
      simp [isRejected_picture _ m hm]
  · obtain ⟨looked, fates, ha⟩ := hb.accounts k link hk
    exact ⟨Nat.lt_succ_of_lt (hb.links k link hk), looked, fates,
      ha.relink rfl (.refl _) fun _ _ => hheld⟩

/-! ## Requests that are taken up -/

section

variable {settings : ControllerSettings} {e : HubEvent} {news : List HubOccurrence}
  {waiting : List LinkId} (hb : Books (Pending h.controller) log log h)
  (hrun : Run (.ofSettings settings) log h)
include hb hrun

/-- What is held has a number that is used up. -/
lemma Books.held_lt (hh : Held h l t r) : t < h.controller.nextTask := by
  obtain ⟨_, hreach⟩ := hrun.reachable
  obtain ⟨w, ht, -⟩ := hb.owned.satisfied l t r hh
  exact (Controller.sound_of_run hreach).fresh t _ ht

/-- The books stay right when a request is held from now on that the controller is to take up. -/
lemma Books.register (hl : l < h.nextLink)
    (hlinks : ∀ k link', b.links[k]? = some link' → k ≠ l ∧ h.links[k]? = some link' ∨
      k = l ∧ ∃ looked fates, Account (x :: log) b l link' looked fates)
    (hheld : ∀ k t' r', Held b k t' r' ↔
      Held h k t' r' ∨ k = l ∧ t' = h.controller.nextTask ∧ r' = r)
    (hapart : ∀ k t' r', WaitsFor b k t' r' → b.detached[t']? = none)
    (hreceived : ∀ k, k ≠ l → x.event.text? k = none)
    (hhanded : ∀ k, k ≠ l → (handedBy k log).Perm (handedBy k (x :: log)))
    (hfeed : b.feed = h.feed) (hnext : b.nextLink = h.nextLink) :
    Books (Awaited h.controller (.request r)) log (x :: log) b := by
  refine hb.change hl hlinks (fun k t' r' hne => ?_) hreceived hhanded hfeed hnext
    ⟨fun k t' r' hh => ?_, fun k k' t' s s' h₁ h₂ => ?_, hapart⟩ fun k t' r' result hh => ?_
  · rw [hheld]
    exact or_iff_left fun ⟨he, _⟩ => hne he
  · rcases (hheld k t' r').mp hh with hh | ⟨-, rfl, rfl⟩
    · exact .inl (hb.owned.satisfied k t' r' hh)
    · exact .inr ⟨rfl, rfl⟩
  -- the new number is above those of all that was held
  · rcases (hheld k t' s).mp h₁ with h₁ | ⟨rfl, rfl, rfl⟩ <;>
      rcases (hheld k' _ s').mp h₂ with h₂ | ⟨rfl, heq, rfl⟩
    · exact hb.owned.unique k k' t' s s' h₁ h₂
    · exact absurd (heq ▸ hb.held_lt hrun h₁) (Nat.lt_irrefl _)
    · exact absurd (hb.held_lt hrun h₂) (Nat.lt_irrefl _)
    · exact ⟨rfl, rfl⟩
  · rcases (hheld k t' r').mp hh with hh | ⟨-, rfl, -⟩
    · exact hb.unanswered k t' r' result hh
    · exact fun ha => Nat.lt_irrefl _ (hrun.numbered.answered _ result ha)

/-- The books stay right when a link waits for the request that its text makes. -/
lemma Books.attend {rest : List Frame} (hl : LooksAt h l link (.text s) rest)
    (hs : ViewRequest.ofText? s = some r) (hr : r.isDetached = false) (hfound : x.found = h)
    (he : x.event = .look l) (hn : x.news.filterMap HubOccurrence.handed? = []) :
    Books (Awaited h.controller (.request r)) log (x :: log) (h.withLink l fun link =>
      { link with inbox := rest, waiting := some (h.controller.nextTask, r) }) := by
  have hwaits {k t' r'} : WaitsFor (h.withLink l fun link =>
      { link with inbox := rest, waiting := some (h.controller.nextTask, r) }) k t' r' ↔
      WaitsFor h k t' r' ∨ k = l ∧ t' = h.controller.nextTask ∧ r' = r := by
    rw [waitsFor_withLink]
    constructor
    · rintro (⟨-, hw⟩ | ⟨rfl, link', -, hw⟩)
      · exact .inl hw
      · cases hw
        exact .inr ⟨rfl, rfl, rfl⟩
    · rintro (hw | ⟨rfl, rfl, rfl⟩)
      · refine .inl ⟨?_, hw⟩
        rintro rfl
        obtain ⟨link', hl', hwaiting⟩ := hw
        cases hl.found.symm.trans hl'
        cases hl.idle.symm.trans hwaiting
      · exact .inr ⟨rfl, link, hl.found, rfl⟩
  have hheld {k t' r'} : Held (h.withLink l fun link =>
      { link with inbox := rest, waiting := some (h.controller.nextTask, r) }) k t' r' ↔
      Held h k t' r' ∨ k = l ∧ t' = h.controller.nextTask ∧ r' = r := by
    rw [Held, hwaits, or_right_comm]
    rfl
  have hdetach : ∀ k r, x.event ≠ .detach k r := by
    rw [he]
    exact fun _ _ => HubEvent.noConfusion
  have hhanded (k) : handedBy k (x :: log) = handedBy k log := by
    rw [handedBy_cons hdetach, hn]
    exact List.append_nil _
  refine hb.register hrun (hb.links l link hl.found) (fun k link' hk => ?_) (fun _ _ _ => hheld)
    (fun k t' r' hw => ?_) (fun k _ => by rw [he]; rfl) (fun k _ => .of_eq (hhanded k).symm) rfl rfl
  · by_cases hne : k = l
    · subst hne
      rw [getElem?_withLink_self, hl.found] at hk
      cases hk
      obtain ⟨looked, fates, ha⟩ := hb.accounts k link hl.found
      have htaken : TakenUp (x :: log) k r h.controller.nextTask :=
        ⟨x, List.mem_cons_self, by rw [hfound], by
          rw [hfound, he]
          exact .inr ⟨rfl, link, s, rest, hl, hs, hr⟩⟩
      refine .inr ⟨rfl, _, _, ha.look (f := .underWay h.controller.nextTask r) (by rw [he]; rfl)
        (by rw [hl.inbox]; rfl) rfl (.underWay hs htaken) (fun t' ht' hmem => ?_)
        (fun t' r' => hheld.trans (or_congr_right ?_)) ?_ (.refl _)⟩
      · cases ht'
        exact Nat.lt_irrefl _ (ha.task_lt hrun.numbered _ hmem)
      · rw [Fate.underWay.injEq]
        exact and_iff_right rfl
      · exact .of_eq ((List.append_nil _).trans (hhanded k).symm)
    · rw [getElem?_withLink_of_ne hne] at hk
      exact .inl ⟨hne, hk⟩
  · rcases hwaits.mp hw with hw | ⟨-, rfl, -⟩
    · exact hb.owned.apart k t' r' hw
    · refine Option.eq_none_iff_forall_ne_some.mpr fun held hd => ?_
      exact Nat.lt_irrefl _ (hb.held_lt hrun (.inr hd))

/-- The books stay right when a request begins beside the link that has handed it over. -/
lemma Books.detach (hmem : (l, r) ∈ handedIn log) (hfound : x.found = h)
    (he : x.event = .detach l r) (hn : x.news.filterMap HubOccurrence.handed? = []) :
    Books (Awaited h.controller (.request r)) log (x :: log)
      { h with detached := h.detached.insert h.controller.nextTask (l, r) } := by
  have hheld {k t' r'} : Held
      { h with detached := h.detached.insert h.controller.nextTask (l, r) } k t' r' ↔
      Held h k t' r' ∨ k = l ∧ t' = h.controller.nextTask ∧ r' = r := by
    have hinsert : (h.detached.insert h.controller.nextTask (l, r))[t']? = some (k, r') ↔
        h.detached[t']? = some (k, r') ∨ k = l ∧ t' = h.controller.nextTask ∧ r' = r := by
      rw [Std.ExtTreeMap.getElem?_insert]
      simp only [Nat.compare_eq_eq]
      split
      · next heq =>
        subst heq
        constructor
        · intro hsome
          cases hsome
          exact .inr ⟨rfl, rfl, rfl⟩
        · rintro (hd | ⟨rfl, -, rfl⟩)
          · exact absurd (hb.held_lt hrun (.inr hd)) (Nat.lt_irrefl _)
          · rfl
      · next hne => exact (or_iff_left fun ⟨_, he, _⟩ => hne he.symm).symm
    exact (or_congr_right hinsert).trans or_assoc.symm
  -- a link that has handed something over has been connected
  have hlink : l < h.nextLink := by
    by_contra hl
    have hnone := (hb.fresh l (Nat.le_of_not_lt hl)).2.1
    have hin : r ∈ handedBy l log :=
      List.mem_map.mpr ⟨(l, r), List.mem_filter.mpr ⟨hmem, beq_self_eq_true l⟩, rfl⟩
    rw [hnone] at hin
    cases hin
  refine hb.register hrun hlink (fun k link' hk => ?_) (fun _ _ _ => hheld) (fun k t' r' hw => ?_)
    (fun k _ => by rw [he]; rfl) (fun k hne => ?_) rfl rfl
  · by_cases hne : k = l
    · subst hne
      obtain ⟨looked, fates, ha⟩ := hb.accounts k link' hk
      have htaken : TakenUp (x :: log) k r h.controller.nextTask :=
        ⟨x, List.mem_cons_self, by rw [hfound], .inl he⟩
      obtain ⟨fates', ha'⟩ := ha.begin he hmem hn htaken
        (fun hin => Nat.lt_irrefl _ (ha.task_lt hrun.numbered _ hin))
        fun t' r' => hheld.trans (or_congr_right (and_iff_right rfl))
      exact .inr ⟨rfl, looked, fates', ha'⟩
    · exact .inl ⟨hne, hk⟩
  · -- the number of the new task is nobody's yet
    have hne : h.controller.nextTask ≠ t' := fun heq =>
      Nat.lt_irrefl _ (heq ▸ hb.held_lt hrun (.inl hw))
    show (h.detached.insert h.controller.nextTask (l, r))[t']? = none
    rw [Std.ExtTreeMap.getElem?_insert, if_neg (by rwa [Nat.compare_eq_eq])]
    exact hb.owned.apart k t' r' hw
  · have hperm := handedBy_detach (l := k) he hmem hn
    rw [if_neg (Ne.symm hne)] at hperm
    exact hperm

/-- The books stay right in every event, until the views are brought up to date. -/
theorem Books.react (hlegal : ∀ l r, e = .detach l r → (l, r) ∈ handedIn log)
    (hr : Reaction h e b news) (hfound : x.found = h) (he : x.event = e)
    (hx : x.news = news ++ waiting.map .waitingFrame) :
    Books (Pending b.controller) (x :: log) (x :: log) b := by
  have hn : x.news.filterMap HubOccurrence.handed? = news.filterMap HubOccurrence.handed? := by
    rw [hx, filterMap_handed?_waiting]
  have hquiet (hnone : ∀ o, .controller o ∉ news) (o) : .controller o ∉ x.news := by
    rw [hx]
    intro ho
    rcases List.mem_append.mp ho with ho | ho
    · exact hnone o ho
    · obtain ⟨_, _, heq⟩ := List.mem_map.mp ho
      cases heq
  have hreceived (hnone : ∀ k, e.text? k = none) (k) : x.event.text? k = none := he ▸ hnone k
  -- an event that hands nothing over leaves what was handed over as it was
  have hhanded (hdetach : ∀ k r, e ≠ .detach k r)
      (hnone : news.filterMap HubOccurrence.handed? = []) (k) :
      handedBy k (x :: log) = handedBy k log := by
    rw [handedBy_cons (he ▸ hdetach), hn, hnone]
    exact List.append_nil _
  cases hr with
  | @driven e' _ _ hd =>
    obtain ⟨occurrences, -, rfl⟩ := happen?_of_drive hd
    have howned : h.Owned (Awaited h.controller e') :=
      ⟨fun l t r hh => .inl (hb.owned.satisfied l t r hh), hb.owned.unique, hb.owned.apart⟩
    exact Books.drive hd hrun.reachable (hb.cons (hreceived fun _ => rfl)
      (hhanded nofun (filterMap_handed?_controller _)) howned) hx
  | connected =>
    exact ((hb.cons (hreceived fun _ => rfl) (hhanded nofun rfl) hb.owned).remember
      (hquiet nofun)).connect
  | cut =>
    exact ((hb.cons (hreceived fun _ => rfl) (hhanded nofun rfl) hb.owned).remember
      (hquiet nofun)).erase _ _
  | @arrived l f link hl =>
    refine hb.withLink hl (fun _ => rfl) (fun hheld looked fates ha => ?_) (fun k hne => ?_)
      (fun k _ => .of_eq (hhanded nofun rfl k).symm) (hquiet nofun)
    · exact ⟨looked, fates, ha.arrive he hn hheld⟩
    · rw [he]
      exact if_neg (Ne.symm hne)
  | skipped hl => exact hb.setAside hl rfl he (hhanded nofun rfl) (hquiet nofun)
  | closed hl => exact (hb.setAside hl rfl he (hhanded nofun rfl) (hquiet nofun)).erase _ _
  | @unreadable l link s rest hl hs =>
    refine hb.lookAt hl he (fun _ => rfl) rfl (.unreadable hs) rfl ?_
      (fun k _ => .of_eq (hhanded nofun rfl k).symm) ?_ (hquiet nofun)
    · exact .of_eq ((List.append_nil _).trans (hhanded nofun rfl l).symm)
    · show ((link.refusals ++ Hub.unreadable :: link.told).filter (·.isRejected)).Perm _
      exact (List.perm_middle.filter _).trans (.of_eq rfl)
  | @handed l link s rest r hl hs hr =>
    have hmore (k) : handedBy k (x :: log) =
        handedBy k log ++ (([(l, r)] : List (LinkId × ViewRequest)).filter (·.1 == k)).map
          Prod.snd := by
      rw [handedBy_cons (he ▸ nofun), hn]
      rfl
    refine hb.lookAt hl he (fun _ => rfl) rfl (.handed hs hr) rfl ?_ (fun k hne => ?_) (.refl _)
      (hquiet fun o ho => ?_)
    · rw [hmore, List.filter_cons_of_pos (by simp)]
      exact .refl _
    · rw [hmore, List.filter_cons_of_neg (by simpa using Ne.symm hne)]
      exact .of_eq (List.append_nil _).symm
    · cases List.mem_singleton.mp ho
  | attended hl hs hr hd =>
    obtain ⟨occurrences, -, rfl⟩ := happen?_of_drive hd
    rw [filterMap_handed?_controller] at hn
    exact Books.drive hd hrun.reachable (hb.attend hrun hl hs hr hfound he hn) hx
  | begun hd =>
    obtain ⟨occurrences, -, rfl⟩ := happen?_of_drive hd
    rw [filterMap_handed?_controller] at hn
    exact Books.drive hd hrun.reachable (hb.detach hrun (hlegal _ _ rfl) hfound he hn) hx

end

/-- The books are right at every point of a run. -/
theorem Run.books {settings : ControllerSettings} (hrun : Run (.ofSettings settings) log h) :
    Books (Pending h.controller) log log h := by
  induction hrun with
  | start =>
    have hheld {l t r} : ¬ Held (ofSettings settings) l t r := by
      rintro (⟨link, hl, -⟩ | hd)
      · simp [ofSettings] at hl
      · simp [ofSettings] at hd
    exact {
      feed := nofun
      links := fun l link hl => by simp [ofSettings] at hl
      fresh := fun l _ => ⟨rfl, rfl, fun t r => hheld⟩
      owned := ⟨fun l t r hh => absurd hh hheld, fun l l' t r r' hh => absurd hh hheld,
        fun l t r hw => absurd (.inl hw) hheld⟩
      unanswered := fun l t r result hh => absurd hh hheld
      accounts := fun l link hl => by simp [ofSettings] at hl }
  | next hrun hlegal hd ih =>
    obtain ⟨b, news, hreaction, rfl, rfl⟩ := perform?_eq_some hd
    exact (ih.react hrun hlegal hreaction rfl rfl rfl).update

end Hub
end SicDebugger
