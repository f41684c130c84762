import SicDebugger.View.Message

/-!
# Links to views

A link joins one view to the debugger. The messages to all views stand in one feed, the latest
first, and a link has a place in it up to which its view was told. A feed holds back the newest
messages only: a view that has missed more is told the whole picture, and then those.
-/

namespace SicDebugger

/-- The number of messages that are held back for a view. -/
def feedCapacity : Nat := 256

/-- What arrives from a view. -/
inductive Frame where
  | text (s : String)
  | other
  | close
deriving DecidableEq, Repr, Inhabited

/-- A link to a view: how many messages of the feed it has been through, the request that it waits
for with the number of its task, the frames it has not looked at, refusals that have come for
requests it did not wait for, and what it has told the view, the latest first. -/
structure Link where
  place : Nat
  waiting : Option (Nat × ViewRequest) := none
  inbox : List Frame := []
  refusals : List ViewMessage := []
  told : List ViewMessage := []
deriving Repr, Inhabited

namespace Link

/-- Whether the link waits for no request. -/
def isIdle (l : Link) : Bool := l.waiting.isNone

/-- Tells the view. -/
def tell (l : Link) (messages : List ViewMessage) : Link :=
  { l with told := messages.reverse ++ l.told }

/-- The messages of a feed that a link is told next: all that it has missed, or the whole picture
and the newest of them. -/
def missed (feed picture : List ViewMessage) (place : Nat) : List ViewMessage :=
  let count := feed.length - place
  if feedCapacity < count then picture ++ (feed.take feedCapacity).reverse
  else (feed.take count).reverse

/-- Tells an idle view what it has missed, and then the refusals. -/
def catchUp (feed picture : List ViewMessage) (l : Link) : Link :=
  if l.isIdle then
    { l.tell (missed feed picture l.place ++ l.refusals) with place := feed.length, refusals := [] }
  else l

end Link
end SicDebugger
