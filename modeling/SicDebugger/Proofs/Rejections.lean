import SicDebugger.Proofs.Books

/-!
# Refusals and the views they go to

The books of the hub are right at every point of a run. So the refusals that a link has told its
view, or keeps for it, are those of its own texts, each exactly once, whichever way they went and
whatever the other views asked meanwhile. A link that waits for nothing has told its view all of
them, and can look at its next frame.
-/

namespace SicDebugger
namespace Hub

variable {h b : Hub} {l : LinkId} {t : TaskId} {r : ViewRequest} {link : Link}
  {log : List HubEntry} {s : String} {result : Except Error Reply}

/-! ## Links that wait for nothing -/

/-- An idle link has told its view all that there is to tell. -/
lemma Run.prompt {settings : ControllerSettings} (hrun : Run (.ofSettings settings) log h)
    (hl : h.links[l]? = some link) (hidle : link.waiting = none) :
    link.place = h.feed.length ∧ link.refusals = [] := by
  cases hrun with
  | start => simp [ofSettings] at hl
  | next _ _ hd =>
    obtain ⟨b, news, -, rfl, -⟩ := perform?_eq_some hd
    rw [getElem?_update] at hl
    obtain ⟨link, -, rfl⟩ := Option.map_eq_some_iff.mp hl
    rw [waiting_catchUp] at hidle
    have hisIdle : link.isIdle = true := Option.isNone_iff_eq_none.mpr hidle
    unfold Link.catchUp
    rw [if_pos hisIdle]
    exact ⟨rfl, rfl⟩

lemma catchUp_eq_self {feed picture : List ViewMessage}
    (hl : link.waiting = none → link.place = feed.length ∧ link.refusals = []) :
    link.catchUp feed picture = link := by
  unfold Link.catchUp
  split
  · next hidle =>
    obtain ⟨hplace, hrefusals⟩ := hl (Option.isNone_iff_eq_none.mp hidle)
    have hmissed : Link.missed feed picture link.place = [] := by
      simp [Link.missed, hplace]
    rw [hmissed, hrefusals]
    cases link
    cases hplace
    cases hrefusals
    rfl
  · rfl

lemma LooksAt.react {f : Frame} {rest : List Frame} (hl : LooksAt h l link f rest) :
    h.react? (.look l) = (h.withLink l fun link => { link with inbox := rest }).handle? l f := by
  have hidle : link.isIdle = true := Option.isNone_iff_eq_none.mpr hl.idle
  simp only [react?, hl.found, hl.inbox, hidle, if_true]

/-- A request can always be taken up. -/
lemma can_drive (h : Hub) (r : ViewRequest) : (h.drive? (.request r)).isSome = true := by
  rw [drive?, Option.isSome_map]
  rfl

/-- An idle link can look at its next frame. -/
lemma LooksAt.can {f : Frame} {rest : List Frame} (hl : LooksAt h l link f rest) :
    (h.perform? (.look l)).isSome = true := by
  rw [perform?, Option.isSome_map, hl.react]
  cases f with
  | other | close => rfl
  | text s =>
    unfold handle?
    dsimp only
    split
    · rfl
    · rfl
    · rfl
    · exact can_drive _ _

/-- A request that was handed over can begin. -/
lemma can_detach (h : Hub) (l : LinkId) (r : ViewRequest) :
    (h.perform? (.detach l r)).isSome = true := by
  rw [perform?, Option.isSome_map]
  exact can_drive _ _

lemma perform?_of_react {e : HubEvent} {news : List HubOccurrence}
    (hd : h.react? e = some (b, news)) :
    h.perform? e = some (b.update.1, news ++ b.update.2.map .waitingFrame) := by
  rw [perform?, hd]
  rfl

/-- A result goes to the only link that waits for it. -/
lemma passResult_of_waits (hw : WaitsFor h l t r)
    (honly : ∀ k r', WaitsFor h k t r' → k = l ∧ r' = r) :
    h.passResult t result =
      h.withLink l fun link => { link.tell (replies r result) with waiting := none } := by
  have hp := passed_passResult h t result
  generalize h.passResult t result = b at hp ⊢
  cases hp with
  | waiting hw' =>
    obtain ⟨rfl, rfl⟩ := honly _ _ hw'
    rfl
  | beside _ hn => exact absurd hw (hn l r)
  | nobody hn => exact absurd (.inl hw) (hn l r)

/-- A link that looks at a query waits for it, and the controller answers it at once. -/
lemma LooksAt.query {rest : List Frame} (hl : LooksAt h l link (.text s) rest)
    (hs : ViewRequest.ofText? s = some .queryState) :
    ∃ c', h.react? (.look l) = some (({ h.withLink l fun link => { link with
        inbox := rest
        waiting := some (h.controller.nextTask, .queryState) } with
          controller := c' } : Hub).passResult h.controller.nextTask
            (.ok (.picture h.controller.picture)),
      [.controller (.answered h.controller.nextTask (.ok (.picture h.controller.picture)))]) := by
  obtain ⟨c', hc⟩ : ∃ c', h.controller.happen? (.request .queryState) =
      some (c', [.answered h.controller.nextTask (.ok (.picture h.controller.picture))]) := ⟨_, rfl⟩
  have hread : (Json.ofText? s).bind ViewRequest.ofJson? = some .queryState := hs
  have hsame (f : Link → Link) : (h.withLink l f).controller = h.controller := rfl
  refine ⟨c', ?_⟩
  rw [hl.react, handle?, hread]
  dsimp only
  rw [attend?, withLink_withLink, hsame, drive?, hsame, hc]
  rfl

/-- A view that asks for the state is told one picture, and no view is told anything else. -/
lemma Run.query {settings : ControllerSettings} {rest : List Frame}
    (hrun : Run (.ofSettings settings) log h) (hl : LooksAt h l link (.text s) rest)
    (hs : ViewRequest.ofText? s = some .queryState) :
    ∃ h' news, h.perform? (.look l) = some (h', news) ∧ h'.feed = h.feed ∧
      ∀ k, h'.links[k]? = if k = l then
        some { link with inbox := rest, told := h.controller.picture.reverse ++ link.told }
        else h.links[k]? := by
  obtain ⟨c', hreact⟩ := hl.query hs
  generalize hb : ({ h.withLink l fun link => { link with
      inbox := rest
      waiting := some (h.controller.nextTask, .queryState) } with controller := c' } : Hub) = b
    at hreact
  have hfeed : b.feed = h.feed := by
    rw [← hb]
    rfl
  have hlinks (k : LinkId) : b.links[k]? = (h.withLink l fun link => { link with
      inbox := rest
      waiting := some (h.controller.nextTask, .queryState) }).links[k]? := by
    rw [← hb]
  -- the link is the only one that waits for this task
  have hwaits : WaitsFor b l h.controller.nextTask .queryState := by
    rw [← hb]
    exact waitsFor_withLink.mpr (.inr ⟨rfl, link, hl.found, rfl⟩)
  have honly (k r') (hw : WaitsFor b k h.controller.nextTask r') : k = l ∧ r' = .queryState := by
    rw [← hb] at hw
    rcases waitsFor_withLink.mp hw with ⟨-, hw⟩ | ⟨rfl, _, -, hw⟩
    · exact absurd (hrun.books.held_lt hrun (.inl hw)) (Nat.lt_irrefl _)
    · cases hw
      exact ⟨rfl, rfl⟩
  rw [passResult_of_waits hwaits honly] at hreact
  -- every link is up to date already, so that to bring it up to date changes nothing
  refine ⟨_, _, perform?_of_react hreact, hfeed, fun k => ?_⟩
  rw [getElem?_update, getElem?_withLink]
  by_cases hk : k = l
  · obtain ⟨hplace, hrefusals⟩ := hrun.prompt hl.found hl.idle
    rw [if_pos hk.symm, if_pos hk, hlinks, getElem?_withLink_self, hl.found]
    refine congrArg some ((catchUp_eq_self ?_).trans ?_)
    · exact fun _ => ⟨hplace.trans (congrArg List.length hfeed.symm), hrefusals⟩
    · have hidle := hl.idle
      cases link
      cases hidle
      rfl
  · rw [if_neg (Ne.symm hk), if_neg hk, hlinks, getElem?_withLink_of_ne hk]
    cases hold : h.links[k]? with
    | none => rfl
    | some link' =>
      refine congrArg some (catchUp_eq_self fun hidle => ?_)
      obtain ⟨hplace, hrefusals⟩ := hrun.prompt hold hidle
      exact ⟨hplace.trans (congrArg List.length hfeed.symm), hrefusals⟩

/-- What fails is reported once, and to the view that asked. -/
structure Reports (log : List HubEntry) (h : Hub) : Prop where
  /-- All views together are told no refusals. -/
  feed : ∀ m ∈ h.feed, m.isRejected = false
  /-- Every open link has an account: of the texts that have arrived it has looked at the first,
  each of these has a fate of its own, and the refusals are those of the fates. -/
  accounts : ∀ l link, h.links[l]? = some link → ∃ looked fates, Account log h l link looked fates
  /-- An idle link keeps no refusal back. -/
  prompt : ∀ (l : LinkId) (link : Link), h.links[l]? = some link → link.waiting = none →
    link.refusals = []
  /-- An idle link can look at its next frame. -/
  looks : ∀ l link f rest, LooksAt h l link f rest → (h.perform? (.look l)).isSome = true
  /-- A request that was handed over can begin. -/
  begins : ∀ l r, (l, r) ∈ handedIn log → (h.perform? (.detach l r)).isSome = true
  /-- A request that is held is under way and not answered yet. -/
  held : ∀ l t r, Held h l t r →
    Pending h.controller t r ∧ ∀ result, ¬ AnsweredIn log t result
  /-- A view that asks for the state is told the six messages of one picture, and no other view is
  told anything. -/
  query : ∀ l link s rest, LooksAt h l link (.text s) rest →
    ViewRequest.ofText? s = some .queryState →
    ∃ h' news, h.perform? (.look l) = some (h', news) ∧ h'.feed = h.feed ∧
      ∀ k, h'.links[k]? = if k = l then
        some { link with
          inbox := rest
          told := [.state h.controller.state, .ofRegisters h.controller.session,
            .ofListings h.controller.session, .ofWatches h.controller.session,
            .ofMemory h.controller.session, .ofErrors h.controller.session].reverse ++ link.told }
        else h.links[k]?

/-- Whatever the views ask, and however their requests get in each other's way, what fails is
reported once, and to the view that asked. -/
theorem failures_are_reported_once {settings : ControllerSettings}
    (hrun : Run (.ofSettings settings) log h) : Reports log h where
  feed := hrun.books.feed
  accounts := hrun.books.accounts
  prompt _ _ hl hidle := (hrun.prompt hl hidle).2
  looks _ _ _ _ hl := hl.can
  begins l r _ := can_detach h l r
  held l t r hh := ⟨hrun.books.owned.satisfied l t r hh, fun result =>
    hrun.books.unanswered l t r result hh⟩
  query _ _ _ _ hl hs := hrun.query hl hs

/-! ## Replaying events -/

/-- Whether an event may come next: a request begins beside a link only if it was handed over. -/
def mayFollow (log : List HubEntry) : HubEvent → Bool
  | .detach l r => (l, r) ∈ handedIn log
  | _ => true

/-- The log and the hub after events, one after the other, if all of them can happen. -/
def replay (start : Hub) (events : List HubEvent) : Option (List HubEntry × Hub) :=
  events.foldlM (fun (log, h) e => if mayFollow log e then
    (h.perform? e).map fun (h', news) => (⟨h, e, news⟩ :: log, h') else none) ([], start)

/-- What can be replayed is a run. -/
theorem Run.of_replay {start : Hub} {events : List HubEvent}
    (hd : replay start events = some (log, h)) : Run start log h := by
  -- the induction is over the events from any point of the run on
  suffices hgoes : ∀ past g, Run start past g →
      events.foldlM (fun (log, h) e => if mayFollow log e then
        (h.perform? e).map fun (h', news) => (⟨h, e, news⟩ :: log, h') else none) (past, g) =
          some (log, h) → Run start log h by
    exact hgoes [] start .start hd
  clear hd
  induction events with
  | nil =>
    intro past g hg hd
    cases hd
    exact hg
  | cons e es ih =>
    intro past g hg hd
    obtain ⟨⟨past', g'⟩, hone, hrest⟩ := Option.bind_eq_some_iff.mp hd
    dsimp only at hone
    split at hone
    · next hmay =>
      obtain ⟨⟨_, news⟩, hperform, heq⟩ := Option.map_eq_some_iff.mp hone
      cases heq
      refine ih _ _ (.next hg (fun l r he => ?_) hperform) hrest
      subst he
      exact of_decide_eq_true hmay
    · cases hone

/-- What two views send, and what becomes of it: the first sends a text that is no request, and
then a pause and a step while the program of the second is being loaded. The load is lost. -/
def twoViews : List HubEvent :=
  [.connect, .connect, .frame 0 (.text "?"), .look 0, .frame 1 (.text "[\"Run\"]"), .look 1,
    .frame 0 (.text "[\"Pause\"]"), .look 0, .frame 0 (.text "[\"Step\"]"), .look 0,
    .detach 0 .pause, .controller (.began 0 (.error (.transport "timeout"))),
    .frame 1 (.text "[\"QueryState\"]")]

/-- The names of the requests whose refusals a view was told, the latest first. -/
def refusedFor (h : Hub) (l : LinkId) : List String :=
  (h.links[l]?.toList.flatMap Link.told).filterMap fun
    | .rejected action _ => some action
    | _ => none

/-- Each of the two views hears of the failures of its own requests. -/
theorem two_views_hear_of_their_own : ∃ log h,
    replay (.ofSettings Controller.oneSource) twoViews = some (log, h) ∧
    refusedFor h 0 = ["pause", "step", "parse"] ∧ refusedFor h 1 = ["run"] ∧ Reports log h := by
  obtain ⟨⟨log, h⟩, hlog⟩ := Option.isSome_iff_exists.mp
    (show (replay (.ofSettings Controller.oneSource) twoViews).isSome = true by decide +kernel)
  have hrefused : (replay (.ofSettings Controller.oneSource) twoViews).map
      (fun p => (refusedFor p.2 0, refusedFor p.2 1)) =
        some (["pause", "step", "parse"], ["run"]) := by decide +kernel
  rw [hlog] at hrefused
  obtain ⟨hfirst, hsecond⟩ := Prod.mk.inj (Option.some.inj hrefused)
  exact ⟨log, h, hlog, hfirst, hsecond, failures_are_reported_once (.of_replay hlog)⟩

end Hub
end SicDebugger
