import SicDebugger.Controller.Event
import SicDebugger.View.Link

/-!
# The hub of the views

The hub joins any number of views to one controller. A link looks at its frames one by one. It
waits for the answer to a request before it looks at the next frame or tells its view what else
happens; a pause or a stop is carried out beside the link, which hears of it only if it is refused.
A refusal goes to the view that asked, and every text is answered by at most one.
-/

namespace SicDebugger

/-- The number of a link. -/
abbrev LinkId := Nat

/-- A controller with its views. -/
structure Hub where
  controller : Controller
  /-- The messages to all views, the latest first. -/
  feed : List ViewMessage := []
  links : Std.ExtTreeMap LinkId Link := ∅
  nextLink : LinkId := 0
  /-- What links that were closed have told their views and has not been taken. -/
  closed : List (LinkId × List ViewMessage) := []
  /-- The pauses and stops under way, by task, with the links that asked for them. -/
  detached : Std.ExtTreeMap TaskId (LinkId × ViewRequest) := ∅
deriving Repr

/-- What moves the hub on. -/
inductive HubEvent where
  | controller (e : Event)
  /-- A view comes. -/
  | connect
  /-- A frame arrives. -/
  | frame (link : LinkId) (f : Frame)
  /-- A link looks at its next frame. -/
  | look (link : LinkId)
  /-- A pause or a stop begins beside a link. -/
  | detach (link : LinkId) (r : ViewRequest)
  /-- A view is cut off. -/
  | cut (link : LinkId)
deriving Repr, Inhabited

/-- What happens in the hub, as its surroundings see it. -/
inductive HubOccurrence where
  | controller (o : Occurrence)
  /-- An idle link has a frame to look at. -/
  | waitingFrame (link : LinkId)
  /-- A pause or a stop can begin. -/
  | detaching (link : LinkId) (r : ViewRequest)
deriving Repr, Inhabited

namespace Hub

/-- The refusal of a request. -/
def rejection (r : ViewRequest) (reason : String) : ViewMessage := .rejected r.action reason

/-- The refusal of a text that is no request. -/
def unreadable : ViewMessage := .rejected "parse" "the text is no request"

/-- What a view is told of the result of its request. -/
def replies (r : ViewRequest) : Except Error Reply → List ViewMessage
  | .error e => [rejection r e.message]
  | .ok (.picture messages) => messages
  | .ok (.flag false) =>
    match r with
    | .selectListing file => [rejection r ("no listing for " ++ file)]
    | _ => []
  | .ok _ => []

/-- Changes a link. -/
def withLink (h : Hub) (l : LinkId) (f : Link → Link) : Hub :=
  { h with links := h.links.alter l fun link => link.map f }

/-- The link that waits for a task. -/
def waitingFor? (h : Hub) (t : TaskId) : Option (LinkId × ViewRequest) :=
  h.links.toList.findSome? fun (l, link) =>
    match link.waiting with
    | some (task, r) => if task = t then some (l, r) else none
    | none => none

/-- Passes the result of a request on to the view that asked. -/
def passResult (h : Hub) (t : TaskId) (result : Except Error Reply) : Hub :=
  match h.waitingFor? t, h.detached[t]? with
  | some (l, r), _ => h.withLink l fun link => { link.tell (replies r result) with waiting := none }
  | none, some (l, r) =>
    { h with detached := h.detached.erase t }.withLink l fun link =>
      { link with refusals := link.refusals ++ replies r result }
  | none, none => h

/-- Takes note of what happens in the controller. -/
def hear (h : Hub) : Occurrence → Hub
  | .published m => { h with feed := m :: h.feed }
  | .answered t result => h.passResult t result
  | _ => h

/-- Brings every idle view up to date. The links that can look at a frame then are given. -/
def update (h : Hub) : Hub × List LinkId :=
  let links := h.links.map fun _ link => link.catchUp h.feed h.controller.picture
  ({ h with links },
    links.toList.filterMap fun (l, link) =>
      if link.isIdle && !link.inbox.isEmpty then some l else none)

/-- Moves the controller on. -/
def drive? (h : Hub) (e : Event) : Option (Hub × List HubOccurrence) :=
  (h.controller.happen? e).map fun (controller, news) =>
    (news.foldl hear { h with controller }, news.map .controller)

/-- Carries out a request that a link waits for. -/
def attend? (h : Hub) (l : LinkId) (r : ViewRequest) : Option (Hub × List HubOccurrence) :=
  (h.withLink l fun link => { link with waiting := some (h.controller.nextTask, r) }).drive?
    (.request r)

/-- Closes a link. What it has told its view stays to be taken. -/
def close (h : Hub) (l : LinkId) : Hub :=
  { h with
    links := h.links.erase l
    closed := h.closed ++ h.links[l]?.toList.map fun link => (l, link.told.reverse) }

/-- Lets a link look at a frame. -/
def handle? (h : Hub) (l : LinkId) : Frame → Option (Hub × List HubOccurrence)
  | .other => some (h, [])
  | .close => some (h.close l, [])
  | .text s =>
    match (Json.ofText? s).bind ViewRequest.ofJson? with
    | none => some (h.withLink l (·.tell [unreadable]), [])
    | some .pause => some (h, [.detaching l .pause])
    | some .stop => some (h, [.detaching l .stop])
    | some r => h.attend? l r

/-- What an event does, before the views are brought up to date. -/
def react? (h : Hub) : HubEvent → Option (Hub × List HubOccurrence)
  | .controller e => h.drive? e
  | .connect =>
    let link : Link := { place := h.feed.length }
    some ({ h with
      links := h.links.insert h.nextLink (link.tell h.controller.picture)
      nextLink := h.nextLink + 1 }, [])
  | .frame l f =>
    if h.links.contains l then
      some (h.withLink l fun link => { link with inbox := link.inbox ++ [f] }, [])
    else none
  | .look l =>
    match h.links[l]? with
    | some link =>
      match link.inbox with
      | f :: rest =>
        if link.isIdle then (h.withLink l fun link => { link with inbox := rest }).handle? l f
        else none
      | [] => none
    | none => none
  | .detach l r =>
    { h with detached := h.detached.insert h.controller.nextTask (l, r) }.drive? (.request r)
  | .cut l => some ({ h with links := h.links.erase l }, [])

/-- The hub after an event, and what has happened in it. -/
def perform? (h : Hub) (e : HubEvent) : Option (Hub × List HubOccurrence) :=
  (h.react? e).map fun (h, news) =>
    let (h, looking) := h.update
    (h, news ++ looking.map .waitingFrame)

/-- Takes what the views have been told, the earliest first. -/
def takeTold (h : Hub) : Hub × List (LinkId × List ViewMessage) :=
  ({ h with links := h.links.map fun _ link => { link with told := [] }, closed := [] },
    h.closed ++ h.links.toList.map fun (l, link) => (l, link.told.reverse))

end Hub
end SicDebugger
