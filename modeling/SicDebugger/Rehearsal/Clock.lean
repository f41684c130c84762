/-!
# Virtual time

A rehearsal runs on a clock of its own, which stands still while there is something to do. What is
to be done stands in a queue. Doing it brings cues for more: at once, before anything else in the
queue; in turn, behind it; or after some milliseconds. When the queue is empty the clock moves to
the next moment at which something is due, and what is due at one moment is done in the order in
which it was cued. Nothing is put off for more than thirty years. The one who rehearses can have a
mark set among what is to be done, at which the rehearsal stops.
-/

namespace SicDebugger

/-- When something is to be done. -/
inductive Cue (ε : Type) where
  | atOnce (e : ε)
  | inTurn (e : ε)
  | after (ms : Nat) (e : ε)
deriving Repr

/-- Something to be done, or the mark at which a rehearsal stops. -/
inductive Item (ε : Type) where
  | event (e : ε)
  | mark
deriving Repr

/-- An item for a later moment. -/
structure Timer (ε : Type) where
  due : Nat
  item : Item ε
deriving Repr

/-- The time in milliseconds, what is to be done now, and what is to be done later in the order in
which it was cued. -/
structure Clock (ε : Type) where
  now : Nat := 0
  queue : List (Item ε) := []
  timers : List (Timer ε) := []
deriving Repr

namespace Clock

variable {ε σ : Type}

/-- The milliseconds of thirty years, for which a thing is put off at most. -/
def longestWait : Nat := 30 * 365 * 24 * 60 * 60 * 1000

/-- The moment that comes after some milliseconds. -/
def later (c : Clock ε) (ms : Nat) : Nat := c.now + min ms longestWait

/-- Takes cues in their order. Nothing waits for no time at all. -/
def take (c : Clock ε) (cues : List (Cue ε)) : Clock ε :=
  let first := cues.filterMap fun
    | .atOnce e => some (.event e)
    | .after 0 e => some (.event e)
    | _ => none
  let last := cues.filterMap fun
    | .inTurn e => some (.event e)
    | _ => none
  let putOff := cues.filterMap fun
    | .after (ms + 1) e => some ⟨c.later (ms + 1), .event e⟩
    | _ => none
  { c with queue := first ++ c.queue ++ last, timers := c.timers ++ putOff }

/-- Sets a mark after some milliseconds. -/
def mark (c : Clock ε) (ms : Nat) : Clock ε :=
  { c with timers := c.timers ++ [⟨c.later ms, .mark⟩] }

/-- Moves to the next moment at which something is due, if there is one. -/
def moveOn? (c : Clock ε) : Option (Clock ε) :=
  (c.timers.map Timer.due).min?.map fun due => {
    now := due
    queue := c.queue ++ (c.timers.filter (·.due == due)).map Timer.item
    timers := c.timers.filter (·.due != due) }

/-- Goes on until a mark is reached, something is true, or nothing is to be done any more. -/
def run (perform : σ → ε → σ × List (Cue ε)) (isOver : σ → Bool) :
    (fuel : Nat) → σ × Clock ε → σ × Clock ε
  | 0, w => w
  | fuel + 1, (s, c) =>
    if isOver s then (s, c)
    else
      match c.queue with
      | .event e :: rest =>
        let (s, cues) := perform s e
        run perform isOver fuel (s, { c with queue := rest }.take cues)
      | .mark :: rest => (s, { c with queue := rest })
      | [] =>
        match c.moveOn? with
        | some c => run perform isOver fuel (s, c)
        | none => (s, c)

end Clock
end SicDebugger
