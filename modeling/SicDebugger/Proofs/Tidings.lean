import SicDebugger.Proofs.Effects

/-!
# What an event tells the views

An event changes the session, takes execution states and tells the views messages. What it can do
of these is said here once, for all events: the controller that the event finds decides which part
of the list applies, and with it which messages there are, in which order, and what the session is
when they are told. How the controller goes on afterwards plays no part.
-/

namespace SicDebugger

/-- The message that all views are told, where an occurrence is one. -/
def Occurrence.message? : Occurrence → Option ViewMessage
  | published m => some m
  | _ => none

/-- The message that an entry of the log tells all views. -/
def LogEntry.message? : LogEntry → Option ViewMessage
  | .occurrence o => o.message?
  | .event .. => none

/-- The messages that a log tells all views, the latest first. -/
def toldIn (log : List LogEntry) : List ViewMessage := log.filterMap LogEntry.message?

lemma toldIn_append (later earlier : List LogEntry) :
    toldIn (later ++ earlier) = toldIn later ++ toldIn earlier :=
  List.filterMap_append

/-- Whether a message refuses a request. -/
def ViewMessage.isRejected : ViewMessage → Bool
  | rejected .. => true
  | _ => false

/-- The execution state that a message tells. -/
def ViewMessage.state? : ViewMessage → Option ExecutionState
  | state s => some s
  | _ => none

/-- The execution states that are taken once the views have been refreshed, the latest first. A loop
that is to step on takes none, unless it was asked to pause. -/
def AfterRefresh.states : AfterRefresh → Role → List ExecutionState
  | .load .run, _ => [.running, .ready]
  | .load .step, _ => [.ready]
  | .step .continue, .loop (some .pause) => [.paused]
  | .step .continue, .loop _ => []
  | .step _, _ => [.paused]

namespace Controller

/-! ## Scenes -/

/-- What the views can know of a controller: its session and its state, and what they have all been
told, the latest first. -/
structure Scene where
  session : Session
  state : ExecutionState
  told : List ViewMessage

namespace Scene

/-- All views are told. -/
def tell (s : Scene) (m : ViewMessage) : Scene := { s with told := m :: s.told }

/-- All views are told about the session. -/
def tellOf (s : Scene) (build : Session → ViewMessage) : Scene := s.tell (build s.session)

/-- An execution state is taken and told. -/
def enter (s : Scene) (state : ExecutionState) : Scene := { s with state }.tell (.state state)

/-- The session changes. -/
def change (s : Scene) (f : Session → Session) : Scene := { s with session := f s.session }

/-- Execution states are taken and told, the last of them first. -/
def enterAll (s : Scene) (states : List ExecutionState) : Scene :=
  states.foldr (fun state s => s.enter state) s

lemma told_enterAll (s : Scene) (states : List ExecutionState) :
    (s.enterAll states).told = states.map .state ++ s.told := by
  induction states with
  | nil => rfl
  | cons state states ih => exact congrArg (.state state :: ·) ih

lemma session_enterAll (s : Scene) (states : List ExecutionState) :
    (s.enterAll states).session = s.session := by
  induction states with
  | nil => rfl
  | cons state states ih => exact ih

/-- The registers after a step are taken and told, and so is a file that became active. -/
def takeStep (s : Scene) (next : RegisterSnapshot) : Scene :=
  let told := (s.change fun s => (s.applyStep next).1).tellOf ViewMessage.ofRegisters
  (s.session.applyStep next).2.focused.elim told fun file => told.tell (.activeListing file)

lemma session_takeStep (s : Scene) (next : RegisterSnapshot) :
    (s.takeStep next).session = (s.session.applyStep next).1 := by
  unfold takeStep
  cases (s.session.applyStep next).2.focused <;> rfl

/-- The errors of a load are taken and told, and so is the place of the first of them. -/
def takeErrors (s : Scene) (files : List LoadedFile) : Scene :=
  let told := (s.change (·.applyFailed files)).tellOf ViewMessage.ofErrors
  ((Session.firstError? files).map fun p =>
    { p with file := s.session.diagnostics.key p.file }).elim told fun p => told.tell (.reveal p)

end Scene

/-- The scene of a controller. -/
def scene (c : Controller) : Scene where
  session := c.session
  state := c.state
  told := c.history.filterMap Occurrence.message?

lemma toldIn_timeline (c : Controller) (past : List LogEntry) :
    toldIn (c.timeline past) = c.scene.told ++ toldIn past := by
  rw [timeline, toldIn_append, toldIn, List.filterMap_map]
  rfl

section

variable (c : Controller) (t : TaskId) (role : Role)

@[simp] lemma scene_publish (m : ViewMessage) : (c.publish m).scene = c.scene.tell m := rfl

@[simp] lemma scene_publishOf (build : Session → ViewMessage) :
    (c.publishOf build).scene = c.scene.tellOf build := rfl

@[simp] lemma scene_setState (s : ExecutionState) : (c.setState s).scene = c.scene.enter s := rfl

@[simp] lemma scene_withSession (f : Session → Session) :
    (c.withSession f).scene = c.scene.change f := rfl

@[simp] lemma scene_hold : (c.hold t).scene = c.scene := rfl

@[simp] lemma scene_suspend (w : Wait) : (c.suspend t role w).scene = c.scene := rfl

@[simp] lemma scene_call (r : SimulatorRequest) (w : Wait) : (c.call t role r w).scene = c.scene :=
  rfl

@[simp] lemma scene_answer (result : Except Error Reply) : (c.answer t result).scene = c.scene :=
  rfl

@[simp] lemma scene_release : c.release.scene = c.scene := by
  unfold release
  split <;> rfl

@[simp] lemma scene_endLoop : (c.endLoop t).scene = c.scene :=
  endLoop_induction (P := fun d => d.scene = c.scene) rfl fun _ _ hd => hd

@[simp] lemma scene_conclude (result : Except Error Reply) :
    (c.conclude t role result).scene = c.scene := by
  cases role with
  | request => exact c.scene_release
  | loop asked => exact (scene_endLoop _ t).trans c.scene_release

@[simp] lemma scene_withLoop : c.withLoop.scene = c.scene := rfl

@[simp] lemma scene_askHalt (loop : TaskId) (halt : Halt) :
    (c.askHalt loop halt).scene = c.scene := by
  unfold askHalt
  split
  · split <;> rfl
  · rfl

@[simp] lemma scene_reset (result : Except Error Reply) :
    (c.reset t role result).scene = c.scene.enter .stopped := rfl

@[simp] lemma scene_sendStep : (c.sendStep t role).scene = c.scene := rfl

@[simp] lemma scene_startLoop : (c.startLoop t).scene = c.scene.enter .running := by
  rw [startLoop_eq]
  simp

@[simp] lemma scene_failLoad (err : Error) :
    (c.failLoad t err).scene = (c.scene.tell (.notice err.message)).enter .idle := by
  rw [failLoad]
  simp

@[simp] lemma scene_refresh (next : AfterRefresh) : (c.refresh t role next).scene = c.scene := by
  rw [refresh_eq, scene_suspend]
  exact sendReads_induction (P := fun d => d.scene = c.scene) rfl fun _ _ _ hd => hd

@[simp] lemma scene_takeStep (next : RegisterSnapshot) :
    (c.takeStep next).scene = c.scene.takeStep next := by
  have hsession : c.scene.session = c.session := rfl
  rw [takeStep, Scene.takeStep, hsession]
  cases (c.session.applyStep next).2.focused <;> rfl

@[simp] lemma scene_takeErrors (files : List LoadedFile) :
    (c.takeErrors files).scene = c.scene.takeErrors files := by
  have hsession : c.scene.session = c.session := rfl
  rw [takeErrors, Scene.takeErrors, hsession]
  cases (Session.firstError? files).map fun p =>
    { p with file := c.session.diagnostics.key p.file } <;> rfl

@[simp] lemma scene_leaveLoop (halt : Halt) :
    (c.leaveLoop t halt).scene = if halt = .pause then c.scene.enter .paused else c.scene := by
  cases halt <;> simp [leaveLoop]

@[simp] lemma scene_beginTurn (asked : Option Halt) :
    (c.beginTurn t asked).scene =
      if asked = some .pause then c.scene.enter .paused else c.scene := by
  cases asked with
  | none => rfl
  | some halt => simp [beginTurn]

end

/-! ## What there is to tell -/

/-- What an event makes of the scene, by the controller that it finds. -/
inductive Tidings (c : Controller) : Event → Scene → Prop where
  | nothing {e} : Tidings c e c.scene
  | load {r} (hr : r = .run ∨ r = .step) (hg : c.guard = none)
      (hs : c.state = .idle ∨ c.state = .stopped) :
      Tidings c (.request r) (c.scene.enter .loading)
  | run {r} (hr : r = .run ∨ r = .step) (hg : c.guard = none)
      (hs : c.state = .ready ∨ c.state = .paused) :
      Tidings c (.request r) (c.scene.enter .running)
  | stop (hg : c.guard = none) : Tidings c (.request .stop) (c.scene.enter .stopped)
  /-- A stop goes on once its loop has ended. -/
  | freed {t : TaskId} {role loop} (ht : c.tasks[t]? = some ⟨role, .loopEnd loop .stop⟩)
      (hg : c.guard = none) : Tidings c (.resumed t) (c.scene.enter .stopped)
  /-- A loop leaves that was asked to pause. -/
  | left {t : TaskId} {w} (ht : c.tasks[t]? = some ⟨.loop (some .pause), w⟩)
      (hw : w = .turn ∨ w = .asleep ∨ w = .inLine) :
      Tidings c (.resumed t) (c.scene.enter .paused)
  | toggled {file row} : Tidings c (.request (.toggleBreakpoint file row))
      ((c.scene.change fun s => { s with listings := s.listings.toggle file row }).tellOf
        ViewMessage.ofListings)
  | selected {file listings} (hl : c.session.listings.select? file = some listings) :
      Tidings c (.request (.selectListing file))
        ((c.scene.change fun s => { s with listings }).tell (.activeListing file))
  | moved {first last range} (hr : AddressRange.between first last = .ok range) :
      Tidings c (.request (.setWindow first last))
        ((c.scene.change (·.setWindow range)).tellOf ViewMessage.ofMemory)
  /-- The memory window has moved and is read before the views are told. -/
  | moving {first last range} (hr : AddressRange.between first last = .ok range)
      (hg : c.guard = none) (hs : betweenSteps c.state = true) :
      Tidings c (.request (.setWindow first last)) (c.scene.change (·.setWindow range))
  | checked {t files} : Tidings c (.checked t (.ok files))
      ((c.scene.change fun s => { s with diagnostics := applyCheck s.diagnostics files }).tellOf
        ViewMessage.ofErrors)
  | beginFailed {t : TaskId} {role goal err} (ht : c.tasks[t]? = some ⟨role, .begin goal⟩) :
      Tidings c (.began t (.error err)) ((c.scene.tell (.notice err.message)).enter .idle)
  | loadFailed {t : TaskId} {role goal err} (ht : c.tasks[t]? = some ⟨role, .load goal⟩) :
      Tidings c (.loaded t (.error err)) ((c.scene.tell (.notice err.message)).enter .idle)
  /-- A load is answered with the errors of the program. -/
  | refused {t : TaskId} {role goal files} (ht : c.tasks[t]? = some ⟨role, .load goal⟩) :
      Tidings c (.loaded t (.ok (.failed files))) ((c.scene.takeErrors files).enter .idle)
  | loaded {t registers files} : Tidings c (.loaded t (.ok (.loaded registers files)))
      ((((c.scene.change (·.applyLoaded registers files)).tellOf ViewMessage.ofErrors).tellOf
        ViewMessage.ofRegisters).tellOf ViewMessage.ofListings)
  | stepFailed {t : TaskId} {role err} (ht : c.tasks[t]? = some ⟨role, .step⟩) :
      Tidings c (.stepped t (.error err)) ((c.scene.tell (.notice err.message)).enter .stopped)
  | ended {t : TaskId} {role next} (ht : c.tasks[t]? = some ⟨role, .step⟩)
      (hv : (c.session.applyStep next).2.verdict = .finished) :
      Tidings c (.stepped t (.ok next)) ((c.scene.takeStep next).enter .stopped)
  | stepped {t next} (hv : (c.session.applyStep next).2.verdict ≠ .finished) :
      Tidings c (.stepped t (.ok next)) (c.scene.takeStep next)
  | reset {t : TaskId} {role outcome result} (ht : c.tasks[t]? = some ⟨role, .reset outcome⟩) :
      Tidings c (.began t result)
        ((((((c.scene.change Session.clear).tellOf ViewMessage.ofRegisters).tellOf
          ViewMessage.ofListings).tellOf ViewMessage.ofWatches).tellOf
          ViewMessage.ofMemory).enter .idle)
  /-- One of the reads of a refresh is answered, and others are still missing. -/
  | read {t : TaskId} {role pending next slot result p}
      (ht : c.tasks[t]? = some ⟨role, .refresh pending next⟩)
      (hp : pending.find? (·.slot == slot) = some p)
      (hmore : pending.filter (·.slot != slot) ≠ []) :
      Tidings c (.read t slot result) (c.scene.change (storeRead · p.target result))
  | refreshed {t : TaskId} {role pending next slot result p}
      (ht : c.tasks[t]? = some ⟨role, .refresh pending next⟩)
      (hp : pending.find? (·.slot == slot) = some p)
      (hlast : pending.filter (·.slot != slot) = []) :
      Tidings c (.read t slot result)
        ((((c.scene.change (storeRead · p.target result)).tellOf ViewMessage.ofMemory).tellOf
          ViewMessage.ofWatches).enterAll (next.states role))
  | windowRead {t : TaskId} {role range result}
      (ht : c.tasks[t]? = some ⟨role, .windowRead range⟩) :
      Tidings c (.read t 0 result)
        ((c.scene.change (storeRead · (.window range) result)).tellOf ViewMessage.ofMemory)

section

variable {c b d : Controller} {t : TaskId} {role : Role} {e : Event}

/-! ## Requests -/

lemma Tidings.loading {r : ViewRequest} {goal : LoadGoal} (hb : b.scene = c.scene)
    (hr : r = .run ∨ r = .step) (hg : c.guard = none) (hs : c.state = .idle ∨ c.state = .stopped) :
    Tidings c (.request r) (b.load t goal).scene := by
  unfold Controller.load
  split
  · rw [scene_conclude, hb]
    exact .nothing
  · rw [scene_call, scene_setState, hb]
    exact .load hr hg hs

/-- A request that needs the guard is refused or carried out with it. -/
lemma Tidings.guarded {go : Controller → Controller} (hb : b.scene = c.scene)
    (hgo : b.guard = none → Tidings c e (go (b.hold t)).scene) :
    Tidings c e (b.guarded t go).scene := by
  unfold Controller.guarded
  split
  · rw [scene_answer, hb]
    exact .nothing
  · next hg => exact hgo hg

lemma Tidings.ofRun (hb : b.scene = c.scene) (hg : b.guard = c.guard) :
    Tidings c (.request .run) (b.run t).scene := by
  refine .guarded hb fun hfree => ?_
  rw [hg] at hfree
  have hstate : (b.hold t).state = c.state := congrArg Scene.state hb
  rw [hstate]
  cases hs : c.state with
  | running | loading =>
    rw [scene_conclude, scene_hold, hb]
    exact .nothing
  | idle => exact .loading hb (.inl rfl) hfree (.inl hs)
  | stopped => exact .loading hb (.inl rfl) hfree (.inr hs)
  | ready =>
    rw [scene_startLoop, scene_hold, hb]
    exact .run (.inl rfl) hfree (.inl hs)
  | paused =>
    rw [scene_startLoop, scene_hold, hb]
    exact .run (.inl rfl) hfree (.inr hs)

lemma Tidings.ofStep (hb : b.scene = c.scene) (hg : b.guard = c.guard) :
    Tidings c (.request .step) (b.step t).scene := by
  refine .guarded hb fun hfree => ?_
  rw [hg] at hfree
  have hstate : (b.hold t).state = c.state := congrArg Scene.state hb
  rw [hstate]
  cases hs : c.state with
  | running | loading =>
    rw [scene_conclude, scene_hold, hb]
    exact .nothing
  | idle => exact .loading hb (.inr rfl) hfree (.inl hs)
  | stopped => exact .loading hb (.inr rfl) hfree (.inr hs)
  | ready =>
    rw [scene_sendStep, scene_setState, scene_hold, hb]
    exact .run (.inr rfl) hfree (.inl hs)
  | paused =>
    rw [scene_sendStep, scene_setState, scene_hold, hb]
    exact .run (.inr rfl) hfree (.inr hs)

/-- A halting request changes nothing while it asks a loop to halt. -/
lemma Tidings.haltLoop {halt : Halt} {otherwise : Controller → Controller}
    (hb : b.scene = c.scene)
    (hgo : Tidings c e (otherwise { b with handle := none }).scene) :
    Tidings c e (b.haltLoop t halt otherwise).scene := by
  unfold Controller.haltLoop
  split
  · split
    · rw [scene_suspend, scene_askHalt]
      exact hb ▸ .nothing
    · exact hgo
  · exact hgo

/-- A request changes the scene before it tells anything at all, or it does nothing. -/
lemma tidings_request (c : Controller) (r : ViewRequest) :
    Tidings c (.request r) (c.request r).scene := by
  unfold Controller.request
  cases r with
  | run => exact .ofRun rfl rfl
  | step => exact .ofStep rfl rfl
  | pause =>
    refine .haltLoop rfl ?_
    dsimp only
    split <;> exact .nothing
  | stop =>
    refine .haltLoop rfl (.guarded rfl fun hg => ?_)
    exact .stop hg
  | toggleBreakpoint file row => exact .toggled
  | selectListing file =>
    dsimp only [selectListing]
    split
    · next hl => exact .selected hl
    · exact .nothing
  | setDelay ms =>
    dsimp only [setDelay]
    split <;> exact .nothing
  | setWindow first last =>
    dsimp only [setWindow]
    split
    · exact .nothing
    · next hr =>
      split
      · next hfree => exact .moving hr hfree.2 hfree.1
      · exact .moved hr
  | check texts names =>
    dsimp only [check]
    split <;> exact .nothing
  | queryState => exact .nothing

/-! ## Tasks that go on -/

lemma tidings_resume {task : Task} (ht : c.tasks[t]? = some task) (hd : c.resume? t task = some d) :
    Tidings c (.resumed t) d.scene := by
  rcases resume?_eq_some hd with ⟨asked, rfl, rfl⟩ | ⟨asked, rfl, rfl⟩ | ⟨asked, rfl, _, rfl⟩ |
    ⟨role, loop, halt, rfl, _, rfl⟩
  · rw [scene_beginTurn]
    split
    · next hasked => exact .left (hasked ▸ ht) (.inl rfl)
    · exact .nothing
  · unfold Controller.afterDelay
    split
    · rw [scene_leaveLoop]
      split
      · next hpause => exact .left (hpause ▸ ht) (.inr (.inl rfl))
      · exact .nothing
    · exact .nothing
    · exact .nothing
  · unfold Controller.withGuard
    split
    · rw [scene_leaveLoop, scene_release]
      split
      · next hpause => exact .left (hpause ▸ ht) (.inr (.inr rfl))
      · exact .nothing
    · exact .nothing
  · cases halt with
    | pause => exact .nothing
    | stop => exact .guarded rfl fun hg => .freed ht hg

/-! ## Answers of the simulator -/

lemma tidings_afterStep {result : Except Error RegisterSnapshot}
    (ht : c.tasks[t]? = some ⟨role, .step⟩) :
    Tidings c (.stepped t result) (c.afterStep t role result).scene := by
  cases result with
  | error err => exact .stepFailed ht
  | ok next =>
    rw [afterStep_ok]
    split
    · next hv =>
      rw [scene_reset, scene_takeStep]
      exact .ended ht hv
    · next hv =>
      rw [scene_refresh, scene_takeStep]
      exact .stepped hv

lemma tidings_afterLoad {goal : LoadGoal} {result : Except Error LoadOutcome}
    (ht : c.tasks[t]? = some ⟨role, .load goal⟩) :
    Tidings c (.loaded t result) (c.afterLoad t goal result).scene := by
  cases result with
  | error err =>
    show Tidings c _ (c.failLoad t err).scene
    rw [scene_failLoad]
    exact .loadFailed ht
  | ok outcome =>
    cases outcome with
    | loaded registers files =>
      show Tidings c _ (Controller.refresh _ t .request (.load goal)).scene
      rw [scene_refresh]
      exact .loaded
    | failed files =>
      rw [afterLoad_failed, scene_conclude, scene_setState, scene_takeErrors]
      exact .refused ht

/-- What follows a refresh takes the states that belong to it. -/
lemma scene_afterRefresh (c : Controller) (t : TaskId) (role : Role) (next : AfterRefresh) :
    (c.afterRefresh t role next).scene =
      ((c.scene.tellOf ViewMessage.ofMemory).tellOf ViewMessage.ofWatches).enterAll
        (next.states role) := by
  cases next with
  | load goal => cases goal <;> simp [afterRefresh, AfterRefresh.states, Scene.enterAll]
  | step verdict =>
    cases role with
    | request =>
      cases verdict <;> simp [afterRefresh, AfterRefresh.states, Scene.enterAll]
    | loop asked =>
      cases verdict with
      | «continue» =>
        rcases asked with _ | _ | _ <;>
          simp [afterRefresh, endTurn, AfterRefresh.states, Scene.enterAll]
      | breakpointHit | finished =>
        simp [afterRefresh, endTurn, AfterRefresh.states, Scene.enterAll]

lemma tidings_afterRead {pending : List PendingRead} {next : AfterRefresh} {slot : Nat}
    {result : Except Error (List UInt8)} (ht : c.tasks[t]? = some ⟨role, .refresh pending next⟩) :
    Tidings c (.read t slot result) (c.afterRead t role pending next slot result).scene := by
  unfold Controller.afterRead
  split
  · exact .nothing
  · next p hp =>
    dsimp only
    split
    · next hlast =>
      rw [scene_afterRefresh]
      exact .refreshed ht hp (List.isEmpty_iff.mp hlast)
    · next hmore => exact .read ht hp fun hnil => hmore (List.isEmpty_iff.mpr hnil)

lemma tidings_afterWindow {range : AddressRange} {result : Except Error (List UInt8)}
    (ht : c.tasks[t]? = some ⟨role, .windowRead range⟩) :
    Tidings c (.read t 0 result) (c.afterWindow t range result).scene := by
  unfold Controller.afterWindow
  rw [scene_answer, scene_publishOf, scene_release, scene_withSession]
  exact .windowRead ht

lemma tidings_afterReset {outcome : Except Error Reply} {result : Except Error Unit}
    (ht : c.tasks[t]? = some ⟨role, .reset outcome⟩) :
    Tidings c (.began t result) (c.afterReset t role outcome).scene := by
  unfold Controller.afterReset
  rw [scene_conclude]
  exact .reset ht

/-- What an event tells the views and makes of the session is what there is to tell. -/
theorem tidings_of_perform (hd : c.perform? e = some d) : Tidings c e d.scene := by
  cases e with
  | request r =>
    cases hd
    exact tidings_request c r
  | resumed t =>
    obtain ⟨task, ht, hd⟩ := perform?_resumed hd
    exact tidings_resume ht hd
  | began t result =>
    rcases perform?_began hd with ⟨role, goal, ht, rfl⟩ | ⟨role, outcome, ht, rfl⟩
    · cases result with
      | error err =>
        show Tidings c _ (c.failLoad t err).scene
        rw [scene_failLoad]
        exact .beginFailed ht
      | ok => exact .nothing
    · exact tidings_afterReset ht
  | loaded t result =>
    obtain ⟨role, goal, ht, rfl⟩ := perform?_loaded hd
    exact tidings_afterLoad ht
  | stepped t result =>
    obtain ⟨role, ht, rfl⟩ := perform?_stepped hd
    exact tidings_afterStep ht
  | read t slot result =>
    rcases perform?_read hd with ⟨role, pending, next, ht, _, rfl⟩ | ⟨role, range, ht, rfl, rfl⟩
    · exact tidings_afterRead ht
    · exact tidings_afterWindow ht
  | checked t result =>
    obtain ⟨role, ht, rfl⟩ := perform?_checked hd
    cases result with
    | error err => exact .nothing
    | ok files => exact .checked

end

/-! ## What all views are never told -/

/-- Nothing that all views have been told refuses a request. -/
def Scene.IsPublic (s : Scene) : Prop := ∀ m ∈ s.told, m.isRejected = false

namespace Scene.IsPublic

variable {s : Scene} (hs : s.IsPublic)
include hs

lemma tell {m : ViewMessage} (hm : m.isRejected = false) : (s.tell m).IsPublic := by
  intro m' hm'
  rcases List.mem_cons.mp hm' with rfl | hm'
  · exact hm
  · exact hs m' hm'

lemma change (f : Session → Session) : (s.change f).IsPublic := hs

lemma tellOf {build : Session → ViewMessage} (hm : (build s.session).isRejected = false) :
    (s.tellOf build).IsPublic := hs.tell hm

lemma enter (state : ExecutionState) : (s.enter state).IsPublic :=
  tell (s := { s with state }) hs rfl

lemma enterAll (states : List ExecutionState) : (s.enterAll states).IsPublic := by
  induction states with
  | nil => exact hs
  | cons state states ih => exact ih.enter state

lemma takeStep (next : RegisterSnapshot) : (s.takeStep next).IsPublic := by
  have htold : ((s.change fun s => (s.applyStep next).1).tellOf ViewMessage.ofRegisters).IsPublic :=
    (hs.change _).tellOf rfl
  unfold Scene.takeStep
  cases (s.session.applyStep next).2.focused with
  | none => exact htold
  | some file => exact htold.tell rfl

lemma takeErrors (files : List LoadedFile) : (s.takeErrors files).IsPublic := by
  have htold : ((s.change (·.applyFailed files)).tellOf ViewMessage.ofErrors).IsPublic :=
    (hs.change _).tellOf rfl
  unfold Scene.takeErrors
  cases (Session.firstError? files).map fun p =>
      { p with file := s.session.diagnostics.key p.file } with
  | none => exact htold
  | some p => exact htold.tell rfl

end Scene.IsPublic

/-- No event tells all views of a refusal. -/
lemma Tidings.isPublic {c : Controller} {e : Event} {s : Scene} (h : Tidings c e s)
    (hc : c.scene.IsPublic) : s.IsPublic := by
  cases h with
  | nothing => exact hc
  | load | run | stop | freed | left => exact hc.enter _
  | toggled | moved | checked | windowRead => exact (hc.change _).tellOf rfl
  | selected => exact (hc.change _).tell rfl
  | moving | read => exact hc.change _
  | beginFailed | loadFailed | stepFailed => exact (hc.tell rfl).enter _
  | refused => exact (hc.takeErrors _).enter _
  | loaded => exact (((hc.change _).tellOf rfl).tellOf rfl).tellOf rfl
  | ended => exact (hc.takeStep _).enter _
  | stepped => exact hc.takeStep _
  | reset =>
    exact (((((hc.change _).tellOf rfl).tellOf rfl).tellOf rfl).tellOf rfl).enter _
  | refreshed => exact (((hc.change _).tellOf rfl).tellOf rfl).enterAll _

end Controller
end SicDebugger
