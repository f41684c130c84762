import SicDebugger.Proofs.Discipline
import SicDebugger.Proofs.Halt
import SicDebugger.Proofs.Tidings

/-!
# What the views show

A view starts from a picture of the debugger and takes every message after it. A message replaces
one part of what is shown: a part that an event changes is told in that event, apart from the
variables and the memory window, which are told once all reads that are under way have been
answered. So a view shows what a new picture would show whenever no read is under way, and messages
that are older than its picture do no harm: a part that they tell is told for the last time by the
message that told what the picture has, or else it is told again.
-/

namespace SicDebugger

/-! ## Displays -/

/-- Registers as they are shown. -/
structure ShownRegisters where
  registers : Option RegisterSnapshot
  floatHex : Option String
  changed : RegisterSet

/-- A listing as it is shown, apart from the row at the program counter. -/
structure ShownListing where
  file : String
  rows : List ListingRow
  breakpoints : List UInt64

/-- The memory window as it is shown. -/
structure ShownMemory where
  first : UInt32
  last : UInt32
  values : List UInt8

/-- What a view shows. -/
@[ext]
structure Display where
  state : ExecutionState
  registers : ShownRegisters
  listings : List ShownListing
  active : Option String
  watches : List WatchView
  memory : ShownMemory
  errors : Std.ExtTreeMap String (List Diagnostic)

/-- A listing as it is shown. -/
def ListingView.shown (l : ListingView) : ShownListing := ⟨l.file, l.rows, l.breakpoints⟩

namespace Display

/-- Takes a message, which replaces one part or none. -/
def take (D : Display) : ViewMessage → Display
  | .state state => { D with state }
  | .registers registers floatHex changed => { D with registers := ⟨registers, floatHex, changed⟩ }
  | .listings listings active =>
    { D with
      listings := listings.map ListingView.shown
      active }
  | .activeListing file => { D with active := some file }
  | .watches watches => { D with watches }
  | .memory first last values => { D with memory := ⟨first, last, values⟩ }
  | .errors errors => { D with errors }
  | .reveal _ => D
  | .notice _ => D
  | .rejected .. => D

/-- What is shown of a session in a state. -/
def of (state : ExecutionState) (s : Session) : Display where
  state := state
  registers := ⟨s.registers.snapshot, s.registers.snapshot.bind (·.floatHex.toOption),
    s.registers.changed⟩
  listings := s.listings.listings.map fun l => ⟨l.file, l.rows, s.listings.breakpoints.list l.file⟩
  active := s.listings.activeFile?
  watches := s.watches.views
  memory := ⟨s.memory.range.first, s.memory.range.last, s.memory.values⟩
  errors := s.diagnostics.buckets

lemma shown_listingView (s : Session) :
    (s.listings.listings.map (ViewMessage.listingView s)).map ListingView.shown =
      s.listings.listings.map fun l => ⟨l.file, l.rows, s.listings.breakpoints.list l.file⟩ := by
  rw [List.map_map]
  rfl

/-- The whole picture replaces all that was shown. -/
lemma foldl_picture (D : Display) (state : ExecutionState) (s : Session) :
    (ViewMessage.picture state s).foldl take D = of state s :=
  congrArg (fun listings => ({ of state s with listings } : Display)) (shown_listingView s)

end Display

/-! ## Parts -/

/-- A part of a display, with what a message tells of it. It is open while a task waits for reads
that change it and are not told one by one. -/
structure Part (α : Type) where
  get : Display → α
  told? : ViewMessage → Option α
  get_take : ∀ D m, get (D.take m) = (told? m).getD (get D)
  opens : Wait → Bool := fun _ => false
  isInSection_of_opens : ∀ w, opens w = true → w.isInSection = true := by simp

namespace Part

def state : Part ExecutionState where
  get := Display.state
  told? | .state state => some state | _ => none
  get_take D m := by cases m <;> rfl

def registers : Part ShownRegisters where
  get := Display.registers
  told? | .registers registers floatHex changed => some ⟨registers, floatHex, changed⟩ | _ => none
  get_take D m := by cases m <;> rfl

def listings : Part (List ShownListing) where
  get := Display.listings
  told? | .listings listings _ => some (listings.map ListingView.shown) | _ => none
  get_take D m := by cases m <;> rfl

def active : Part (Option String) where
  get := Display.active
  told? | .listings _ active => some active | .activeListing file => some (some file) | _ => none
  get_take D m := by cases m <;> rfl

def watches : Part (List WatchView) where
  get := Display.watches
  told? | .watches watches => some watches | _ => none
  get_take D m := by cases m <;> rfl
  opens | .refresh .. => true | _ => false
  isInSection_of_opens w := by cases w <;> simp [Wait.isInSection]

def memory : Part ShownMemory where
  get := Display.memory
  told? | .memory first last values => some ⟨first, last, values⟩ | _ => none
  get_take D m := by cases m <;> rfl
  opens | .refresh .. => true | .windowRead _ => true | _ => false
  isInSection_of_opens w := by cases w <;> simp [Wait.isInSection]

def errors : Part (Std.ExtTreeMap String (List Diagnostic)) where
  get := Display.errors
  told? | .errors errors => some errors | _ => none
  get_take D m := by cases m <;> rfl

/-- What messages tell of a part last, where the latest is first. -/
def last? {α : Type} (P : Part α) (messages : List ViewMessage) : Option α :=
  messages.findSome? P.told?

lemma last?_append {α : Type} (P : Part α) (later earlier : List ViewMessage) :
    P.last? (later ++ earlier) = (P.last? later).or (P.last? earlier) :=
  List.findSome?_append

/-- A view shows of a part what it was told last, or what it showed before. -/
lemma get_foldl {α : Type} (P : Part α) (messages : List ViewMessage) (D : Display) :
    P.get (messages.foldl Display.take D) = (P.last? messages.reverse).getD (P.get D) := by
  induction messages generalizing D with
  | nil => rfl
  | cons m rest ih =>
    have hone : P.last? [m] = P.told? m := List.findSome?_singleton
    rw [List.foldl_cons, ih, P.get_take, List.reverse_cons, last?_append, hone]
    cases P.last? rest.reverse <;> rfl

end Part

namespace Controller

variable {log more : List LogEntry} {c d : Controller} {t : TaskId} {e : Event}
  {s : Scene} {α : Type}

/-- What a new picture of a scene would show. -/
def Scene.display (s : Scene) : Display := .of s.state s.session

/-- A scene that nothing had been told before has told a part as it is, or has left it alone. -/
def Faithful (P : Part α) (before s : Scene) : Prop :=
  match P.last? s.told with
  | some v => v = P.get s.display
  | none => P.get s.display = P.get before.display

/-! ## Single events -/

/-- Execution states that are taken leave a part alone that does not show them. -/
lemma Faithful.enterAll {P : Part α} {before : Scene} (h : Faithful P before s)
    (htold : ∀ state, P.told? (.state state) = none)
    (hget : ∀ state state' session, P.get (.of state session) = P.get (.of state' session))
    (states : List ExecutionState) : Faithful P before (s.enterAll states) := by
  have hlast : P.last? (s.enterAll states).told = P.last? s.told := by
    have hnone : P.last? (states.map .state) = none := by
      refine List.findSome?_eq_none_iff.mpr fun m hm => ?_
      obtain ⟨state, _, rfl⟩ := List.mem_map.mp hm
      exact htold state
    rw [Scene.told_enterAll, Part.last?_append, hnone, Option.none_or]
  have hsame : P.get (s.enterAll states).display = P.get s.display := by
    rw [Scene.display, Scene.session_enterAll]
    exact hget ..
  rw [Faithful, hlast, hsame]
  exact h

lemma activeFile?_select {x y : ListingIndex} {file : String} (h : x.select? file = some y) :
    y.activeFile? = some file := by
  obtain ⟨i, hi, rfl⟩ := Option.map_eq_some_iff.mp h
  exact ListingIndex.activeFile?_of_findIdx? rfl hi

/-- A step is told with the file that becomes active by it, and changes no variables and no memory
window. -/
lemma faithful_takeStep (c : Controller) (next : RegisterSnapshot) :
    (Faithful .state c.scene ({ c with history := [] }.scene.takeStep next) ∧
      Faithful .registers c.scene ({ c with history := [] }.scene.takeStep next) ∧
      Faithful .listings c.scene ({ c with history := [] }.scene.takeStep next) ∧
      Faithful .active c.scene ({ c with history := [] }.scene.takeStep next) ∧
      Faithful .errors c.scene ({ c with history := [] }.scene.takeStep next)) ∧
    Faithful .watches c.scene ({ c with history := [] }.scene.takeStep next) ∧
    Faithful .memory c.scene ({ c with history := [] }.scene.takeStep next) := by
  obtain ⟨hsame, hactive⟩ := applyStep_eq c.session next
  have hlistings : (Display.of c.state (c.session.applyStep next).1).listings =
      (Display.of c.state c.session).listings := by
    rw [hsame]
    rfl
  have herrors : (Display.of c.state (c.session.applyStep next).1).errors =
      (Display.of c.state c.session).errors := by
    rw [hsame]
    rfl
  have hwatches : (Display.of c.state (c.session.applyStep next).1).watches =
      (Display.of c.state c.session).watches := by
    rw [hsame]
    rfl
  have hmemory : (Display.of c.state (c.session.applyStep next).1).memory =
      (Display.of c.state c.session).memory := by
    rw [hsame]
    rfl
  have hsession : { c with history := [] }.scene.session = c.session := rfl
  unfold Scene.takeStep
  rw [hsession]
  cases hfocus : (c.session.applyStep next).2.focused with
  | none =>
    rw [hfocus] at hactive
    exact ⟨⟨rfl, rfl, hlistings, hactive, herrors⟩, hwatches, hmemory⟩
  | some file =>
    rw [hfocus] at hactive
    exact ⟨⟨rfl, rfl, hlistings, hactive.symm, herrors⟩, hwatches, hmemory⟩

/-- Apart from the variables and the memory window, all that an event changes is told in it. -/
lemma faithful_of_tidings (ht : Tidings { c with history := [] } e s) :
    Faithful .state c.scene s ∧ Faithful .registers c.scene s ∧ Faithful .listings c.scene s ∧
      Faithful .active c.scene s ∧ Faithful .errors c.scene s := by
  -- an answer to a read changes none of these parts
  have hstored (target : ReadTarget) (result : Except Error (List UInt8)) :
      (Display.of c.state (storeRead c.session target result)).registers =
          c.scene.display.registers ∧
        (Display.of c.state (storeRead c.session target result)).listings =
          c.scene.display.listings ∧
        (Display.of c.state (storeRead c.session target result)).active =
          c.scene.display.active ∧
        (Display.of c.state (storeRead c.session target result)).errors =
          c.scene.display.errors := by
    rw [storeRead_eq]
    exact ⟨rfl, rfl, rfl, rfl⟩
  cases ht with
  | selected hl =>
    obtain ⟨i, _, rfl⟩ := Option.map_eq_some_iff.mp hl
    exact ⟨rfl, rfl, rfl, (activeFile?_select hl).symm, rfl⟩
  | toggled => exact ⟨rfl, rfl, Display.shown_listingView _, rfl, rfl⟩
  | refused =>
    dsimp only [Scene.takeErrors]
    cases Option.map _ _ <;> exact ⟨rfl, rfl, rfl, rfl, rfl⟩
  | loaded => exact ⟨rfl, rfl, Display.shown_listingView _, rfl, rfl⟩
  | @stepped _ next => exact (faithful_takeStep c next).1
  | @ended _ _ next =>
    obtain ⟨_, hregisters, hlistings, hactive, herrors⟩ := (faithful_takeStep c next).1
    exact ⟨rfl, hregisters.enterAll (fun _ => rfl) (fun _ _ _ => rfl) [.stopped],
      hlistings.enterAll (fun _ => rfl) (fun _ _ _ => rfl) [.stopped],
      hactive.enterAll (fun _ => rfl) (fun _ _ _ => rfl) [.stopped],
      herrors.enterAll (fun _ => rfl) (fun _ _ _ => rfl) [.stopped]⟩
  | reset => exact ⟨rfl, rfl, Display.shown_listingView _, rfl, rfl⟩
  | read => exact ⟨rfl, hstored _ _⟩
  | windowRead => exact ⟨rfl, hstored _ _⟩
  | @refreshed _ role _ next _ result p =>
    obtain ⟨hregisters, hlistings, hactive, herrors⟩ := hstored p.target result
    refine ⟨?_, Faithful.enterAll ?_ (fun _ => rfl) (fun _ _ _ => rfl) _,
      Faithful.enterAll ?_ (fun _ => rfl) (fun _ _ _ => rfl) _,
      Faithful.enterAll ?_ (fun _ => rfl) (fun _ _ _ => rfl) _,
      Faithful.enterAll ?_ (fun _ => rfl) (fun _ _ _ => rfl) _⟩
    · rw [Faithful, Scene.told_enterAll]
      cases next.states role <;> rfl
    · exact hregisters
    · exact hlistings
    · exact hactive
    · exact herrors
  | _ => exact ⟨rfl, rfl, rfl, rfl, rfl⟩

/-! ## Parts that are open -/

/-- A part is open. -/
def IsOpen (P : Part α) (c : Controller) : Prop :=
  ∃ (t : TaskId) (role : Role) (w : Wait), c.tasks[t]? = some ⟨role, w⟩ ∧ P.opens w = true

/-- What messages leave of a part that is not open after them: the last of them that tells it has it
as it is then, or else it is as it was before them, and was not open. -/
def Settles (P : Part α) (c : Controller) (told : List ViewMessage) (d : Controller) : Prop :=
  ¬ IsOpen P d →
    match P.last? told with
    | some v => v = P.get d.scene.display
    | none => ¬ IsOpen P c ∧ P.get d.scene.display = P.get c.scene.display

lemma Faithful.settles {P : Part α} (h : ¬ IsOpen P d → Faithful P c.scene d.scene)
    (hopen : IsOpen P c → IsOpen P d ∨ (P.last? d.scene.told).isSome = true) :
    Settles P c d.scene.told d := by
  intro hd
  have hfaithful := h hd
  rw [Faithful] at hfaithful
  cases hlast : P.last? d.scene.told with
  | some v =>
    rw [hlast] at hfaithful
    exact hfaithful
  | none =>
    rw [hlast] at hfaithful hopen
    exact ⟨fun hc => (hopen hc).elim hd (by simp), hfaithful⟩

/-- A part that is never open need only be told. -/
lemma Faithful.settles_of_closed {P : Part α} (h : Faithful P c.scene d.scene)
    (hclosed : ∀ w, P.opens w = false) : Settles P c d.scene.told d := by
  refine Faithful.settles (fun _ => h) ?_
  rintro ⟨_, _, w, _, hw⟩
  rw [hclosed w] at hw
  cases hw

/-- A task that refreshes the views goes on with that, or the views are told all that was read. -/
lemma refreshes_or_tells {role : Role} {pending : List PendingRead} {next : AfterRefresh}
    {slot : Nat} {result : Except Error (List UInt8)}
    (hd : c.perform? (.read t slot result) = some d)
    (ht : c.tasks[t]? = some ⟨role, .refresh pending next⟩) :
    pending.filter (·.slot != slot) ≠ [] ∧
        d.tasks[t]? = some ⟨role, .refresh (pending.filter (·.slot != slot)) next⟩ ∨
      pending.filter (·.slot != slot) = [] ∧
        ∃ s, .ofMemory s ∈ d.scene.told ∧ .ofWatches s ∈ d.scene.told := by
  rcases perform?_read hd with ⟨_, _, _, ht', hslot, rfl⟩ | ⟨_, _, ht', _⟩
  · cases ht.symm.trans ht'
    obtain ⟨p, hp⟩ := find?_slot_eq_some hslot
    unfold afterRead
    rw [hp]
    dsimp only
    split
    · next hlast =>
      refine .inr ⟨List.isEmpty_iff.mp hlast, storeRead c.session p.target result, ?_⟩
      rw [scene_afterRefresh, Scene.told_enterAll]
      exact ⟨List.mem_append_right _ (.tail _ (.head _)), List.mem_append_right _ (.head _)⟩
    · next hmore =>
      exact .inl ⟨fun hnil => hmore (List.isEmpty_iff.mpr hnil), suspend_tasks_self ..⟩
  · cases ht.symm.trans ht'

lemma isSome_last? {P : Part α} {messages : List ViewMessage} {m : ViewMessage}
    (hm : m ∈ messages) (h : (P.told? m).isSome = true) : (P.last? messages).isSome = true :=
  List.findSome?_isSome_iff.mpr ⟨m, hm, h⟩

/-- A part that is open stays so while others are at work. -/
lemma IsOpen.perform {P : Part α} (h : IsOpen P c) (hs : Sound c) (hd : c.perform? e = some d)
    (hown : ∀ role w, c.tasks[e.worker c]? = some ⟨role, w⟩ → P.opens w = true →
      IsOpen P d ∨ (P.last? d.scene.told).isSome = true) :
    IsOpen P d ∨ (P.last? d.scene.told).isSome = true := by
  obtain ⟨u, role, w, hu, hw⟩ := h
  by_cases hworker : e.worker c = u
  · subst hworker
    exact hown role w hu hw
  · obtain ⟨role', hu'⟩ := hs.stays hd hu hworker
    exact .inl ⟨u, role', w, hu', hw⟩

/-- The variables stay open until they are told. -/
lemma open_or_told_watches (hs : Sound c) (hd : c.perform? e = some d)
    (h : IsOpen .watches c) :
    IsOpen .watches d ∨ (Part.watches.last? d.scene.told).isSome = true := by
  refine h.perform hs hd fun role w hu hw => ?_
  have haccepts := accepts_of_perform hs hd hu
  cases w with
  | refresh pending next =>
    cases e with
    | read t slot result =>
      rcases refreshes_or_tells hd hu with ⟨_, hstill⟩ | ⟨_, s, _, htold⟩
      · exact .inl ⟨t, role, _, hstill, rfl⟩
      · exact .inr (isSome_last? htold rfl)
    | request | began | loaded | stepped | checked | resumed => cases haccepts
  | begin | load | step | reset | windowRead | check | loopEnd | turn | asleep | inLine => cases hw

/-- The memory window stays open until it is told. -/
lemma open_or_told_memory (hs : Sound c) (hd : c.perform? e = some d) (h : IsOpen .memory c) :
    IsOpen .memory d ∨ (Part.memory.last? d.scene.told).isSome = true := by
  refine h.perform hs hd fun role w hu hw => ?_
  have haccepts := accepts_of_perform hs hd hu
  cases w with
  | refresh pending next =>
    cases e with
    | read t slot result =>
      rcases refreshes_or_tells hd hu with ⟨_, hstill⟩ | ⟨_, s, htold, _⟩
      · exact .inl ⟨t, role, _, hstill, rfl⟩
      · exact .inr (isSome_last? htold rfl)
    | request | began | loaded | stepped | checked | resumed => cases haccepts
  | windowRead range =>
    cases e with
    | read t slot result =>
      rcases perform?_read hd with ⟨_, _, _, ht, _⟩ | ⟨_, range, _, _, rfl⟩
      · cases hu.symm.trans ht
      · have htold : .ofMemory (storeRead c.session (.window range) result) ∈
            (c.afterWindow t range result).scene.told := by
          unfold afterWindow
          rw [scene_answer, scene_publishOf, scene_release]
          exact .head _
        exact .inr (isSome_last? htold rfl)
    | request | began | loaded | stepped | checked | resumed => cases haccepts
  | begin | load | step | reset | check | loopEnd | turn | asleep | inLine => cases hw

/-- A load that brings a program goes on with a refresh. -/
lemma refreshes_of_loaded {registers : RegisterSnapshot} {files : List LoadedFile}
    (hd : c.perform? (.loaded t (.ok (.loaded registers files))) = some d) :
    ∃ pending next, d.tasks[t]? = some ⟨.request, .refresh pending next⟩ := by
  obtain ⟨_, goal, _, rfl⟩ := perform?_loaded hd
  exact ⟨_, _, suspend_tasks_self ..⟩

/-- The variables are told as they are when no refresh is under way any more. -/
lemma faithful_watches (hd : { c with history := [] }.perform? e = some d)
    (hclosed : ¬ IsOpen .watches d) : Faithful .watches c.scene d.scene := by
  have ht := tidings_of_perform hd
  generalize d.scene = s at ht
  cases ht with
  | refused =>
    dsimp only [Scene.takeErrors]
    cases Option.map _ _ <;> rfl
  | loaded =>
    obtain ⟨pending, next, hwaits⟩ := refreshes_of_loaded hd
    exact absurd ⟨_, _, _, hwaits, rfl⟩ hclosed
  | @stepped _ next => exact (faithful_takeStep c next).2.1
  | @ended _ _ next =>
    exact (faithful_takeStep c next).2.1.enterAll (fun _ => rfl) (fun _ _ _ => rfl) [.stopped]
  | read htask _ hmore =>
    rcases refreshes_or_tells hd htask with ⟨_, hwaits⟩ | ⟨hnil, _⟩
    · exact absurd ⟨_, _, _, hwaits, rfl⟩ hclosed
    · exact absurd hnil hmore
  | refreshed =>
    refine Faithful.enterAll ?_ (fun _ => rfl) (fun _ _ _ => rfl) _
    rfl
  | @windowRead _ _ range result =>
    have hstays : (storeRead c.session (.window range) result).watches = c.session.watches := by
      cases result with
      | error err => rfl
      | ok bytes =>
        dsimp only [storeRead, Session.storeMemory]
        split <;> rfl
    exact congrArg WatchRegistry.views hstays
  | _ => rfl

/-- The memory window is told as it is when no read of it is under way any more. -/
lemma faithful_memory (hd : { c with history := [] }.perform? e = some d)
    (hclosed : ¬ IsOpen .memory d) : Faithful .memory c.scene d.scene := by
  have ht := tidings_of_perform hd
  generalize d.scene = s at ht
  cases ht with
  | refused =>
    dsimp only [Scene.takeErrors]
    cases Option.map _ _ <;> rfl
  | @moving first last range hrange hg hst =>
    have hopen : IsOpen .memory d := by
      cases hd
      refine ⟨c.nextTask, .request, .windowRead range, ?_, rfl⟩
      simp only [request, setWindow, hrange]
      rw [if_pos ⟨hst, hg⟩]
      exact suspend_tasks_self ..
    exact absurd hopen hclosed
  | loaded =>
    obtain ⟨pending, next, hwaits⟩ := refreshes_of_loaded hd
    exact absurd ⟨_, .request, .refresh pending next, hwaits, rfl⟩ hclosed
  | @stepped _ next => exact (faithful_takeStep c next).2.2
  | @ended _ _ next =>
    exact (faithful_takeStep c next).2.2.enterAll (fun _ => rfl) (fun _ _ _ => rfl) [.stopped]
  | read htask _ hmore =>
    rcases refreshes_or_tells hd htask with ⟨_, hwaits⟩ | ⟨hnil, _⟩
    · exact absurd ⟨_, _, .refresh .., hwaits, rfl⟩ hclosed
    · exact absurd hnil hmore
  | refreshed =>
    refine Faithful.enterAll ?_ (fun _ => rfl) (fun _ _ _ => rfl) _
    rfl
  | _ => rfl

/-! ## Runs -/

/-- A part of which every event tells all that it changes, at the latest when it is open no more. -/
def IsTold (P : Part α) : Prop :=
  ∀ {c d : Controller} {e : Event}, Sound c → { c with history := [] }.perform? e = some d →
    Settles P c d.scene.told d

lemma isTold_state : IsTold .state := fun _ hd =>
  (faithful_of_tidings (tidings_of_perform hd)).1.settles_of_closed fun _ => rfl

lemma isTold_registers : IsTold .registers := fun _ hd =>
  (faithful_of_tidings (tidings_of_perform hd)).2.1.settles_of_closed fun _ => rfl

lemma isTold_listings : IsTold .listings := fun _ hd =>
  (faithful_of_tidings (tidings_of_perform hd)).2.2.1.settles_of_closed fun _ => rfl

lemma isTold_active : IsTold .active := fun _ hd =>
  (faithful_of_tidings (tidings_of_perform hd)).2.2.2.1.settles_of_closed fun _ => rfl

lemma isTold_errors : IsTold .errors := fun _ hd =>
  (faithful_of_tidings (tidings_of_perform hd)).2.2.2.2.settles_of_closed fun _ => rfl

lemma isTold_watches : IsTold .watches := fun hs hd =>
  Faithful.settles (faithful_watches hd) fun hopen => open_or_told_watches (hs.forget []) hd hopen

lemma isTold_memory : IsTold .memory := fun hs hd =>
  Faithful.settles (faithful_memory hd) fun hopen => open_or_told_memory (hs.forget []) hd hopen

lemma Settles.trans {P : Part α} {b : Controller} {old new : List ViewMessage}
    (h : Settles P c old b) (h' : Settles P b new d) : Settles P c (new ++ old) d := by
  intro hd
  have hnew := h' hd
  rw [Part.last?_append]
  cases hlast : P.last? new with
  | some v =>
    rw [hlast] at hnew
    exact hnew
  | none =>
    rw [hlast] at hnew
    obtain ⟨hb, hsame⟩ := hnew
    have hold := h hb
    rw [Option.none_or, hsame]
    exact hold

/-- What one event tells of a part, a run tells with all its events. -/
theorem Run.tells {P : Part α} (hP : IsTold P) (hs : Sound c) (h : Run c log d) :
    Settles P c (toldIn log) d := by
  induction h with
  | start => exact fun hd => ⟨hd, rfl⟩
  | next h hd ih =>
    obtain ⟨d', hd', rfl, rfl⟩ := happen?_eq_some hd
    rw [List.reverse_reverse]
    show Settles P c (toldIn (d'.timeline _)) _
    rw [toldIn_timeline]
    exact ih.trans (hP (hs.run h) hd')

/-- The messages that a log tells all views, the earliest first. -/
def published (log : List LogEntry) : List ViewMessage := (toldIn log).reverse

lemma published_append (later earlier : List LogEntry) :
    published (later ++ earlier) = published earlier ++ published later := by
  rw [published, toldIn_append, List.reverse_append, published, published]

/-- A part that is not open is shown as a new picture shows it, however many of the messages before
the picture are taken after it. -/
lemma IsTold.converges {P : Part α} (hP : IsTold P) {settings : ControllerSettings}
    (h : Run (.ofSettings settings) log c) (hm : Run c more d) (hd : ¬ IsOpen P d) {n : Nat}
    (hn : n ≤ (published log).length) (D : Display) :
    P.get ((c.picture ++ (published (more ++ log)).drop n).foldl Display.take D) =
      P.get d.scene.display := by
  have hs : Sound c := sound_of_run h
  -- what a view takes twice are the last of the messages before the picture
  obtain ⟨old, older, hlog, htwice⟩ : ∃ old older, toldIn log = old ++ older ∧
      (published log).drop n = old.reverse := by
    refine ⟨((published log).drop n).reverse, ((published log).take n).reverse, ?_, ?_⟩
    · rw [← List.reverse_append, List.take_append_drop, published, List.reverse_reverse]
    · rw [List.reverse_reverse]
  rw [List.foldl_append, picture, Display.foldl_picture, published_append,
    List.drop_append_of_le_length hn, htwice, P.get_foldl, List.reverse_append,
    List.reverse_reverse, published, List.reverse_reverse, Part.last?_append]
  have hmore := hm.tells hP hs hd
  cases hlast : P.last? (toldIn more) with
  | some v =>
    rw [hlast] at hmore
    exact hmore
  | none =>
    rw [hlast] at hmore
    obtain ⟨hc, hsame⟩ := hmore
    rw [Option.none_or, hsame]
    cases hold : P.last? old with
    | none => rfl
    | some v =>
      -- the last of all messages before the picture that tell the part tells what the picture has
      have hbefore := h.tells hP (sound_of_run .start) hc
      have hlastOf : P.last? (toldIn log) = some v := by
        rw [hlog, Part.last?_append, hold, Option.some_or]
      rw [hlastOf] at hbefore
      exact hbefore

/-- A view that starts from a picture and takes the messages after it, and any number of the last
messages before it once more, shows what a new picture shows whenever no load, step, reset or read
is under way. -/
theorem views_converge {settings : ControllerSettings} (h : Run (.ofSettings settings) log c)
    (hm : Run c more d)
    (hquiet : ∀ (t : TaskId) task, d.tasks[t]? = some task → task.wait.isInSection = false)
    {n : Nat} (hn : n ≤ (published log).length) (D D' : Display) :
    (c.picture ++ (published (more ++ log)).drop n).foldl Display.take D =
      d.picture.foldl Display.take D' := by
  have hclosed {α : Type} (P : Part α) : ¬ IsOpen P d := by
    rintro ⟨t, role, w, ht, hw⟩
    have hin := P.isInSection_of_opens w hw
    rw [hquiet t _ ht] at hin
    cases hin
  rw [show d.picture.foldl Display.take D' = d.scene.display from Display.foldl_picture ..]
  ext1
  · exact isTold_state.converges h hm (hclosed _) hn D
  · exact isTold_registers.converges h hm (hclosed _) hn D
  · exact isTold_listings.converges h hm (hclosed _) hn D
  · exact isTold_active.converges h hm (hclosed _) hn D
  · exact isTold_watches.converges h hm (hclosed _) hn D
  · exact isTold_memory.converges h hm (hclosed _) hn D
  · exact isTold_errors.converges h hm (hclosed _) hn D

/-- A view comes here while a program is being loaded, and is told once more that this has begun. In
the end the loop of the run sleeps, and the memory window has been read. -/
theorem views_converge_around_a_load : ∃ log c more d,
    replay (.ofSettings oneSource) [.request .run, .began 0 (.ok ())] = some (log, c) ∧
    replay c [.loaded 0 (.ok (.loaded {} [])), .read 0 0 (.ok [7]), .resumed 1] = some (more, d) ∧
    (∀ (t : TaskId) task, d.tasks[t]? = some task → task.wait.isInSection = false) ∧
    0 ≤ (published log).length ∧ d.session.memory.values = [7] ∧ ∀ D D' : Display,
      (c.picture ++ (published (more ++ log)).drop 0).foldl Display.take D =
        d.picture.foldl Display.take D' := by
  obtain ⟨⟨log, c⟩, hlog⟩ := Option.isSome_iff_exists.mp (show (replay (.ofSettings oneSource)
    [.request .run, .began 0 (.ok ())]).isSome = true by rfl)
  have hc : c = ((replay (.ofSettings oneSource) [.request .run, .began 0 (.ok ())]).get
      (by rfl)).2 := by
    simp only [hlog, Option.get_some]
  obtain ⟨⟨more, d⟩, hmore⟩ := Option.isSome_iff_exists.mp
    (show (replay c [.loaded 0 (.ok (.loaded {} [])), .read 0 0 (.ok [7]), .resumed 1]).isSome =
      true by subst hc; rfl)
  have hd : d = ((replay c [.loaded 0 (.ok (.loaded {} [])), .read 0 0 (.ok [7]),
      .resumed 1]).get (by subst hc; rfl)).2 := by
    simp only [hmore, Option.get_some]
  have hfree : d.guard = none := by
    rw [hd]
    subst hc
    rfl
  have hread : d.session.memory.values = [7] := by
    rw [hd]
    subst hc
    rfl
  have hrun := Run.of_replay hlog
  have hquiet (t : TaskId) (task : Task) (ht : d.tasks[t]? = some task) :
      task.wait.isInSection = false := by
    refine Bool.eq_false_iff.mpr fun hin => ?_
    have hheld :=
      (disciplined_of_run (hrun.append (.of_replay hmore))).inSection t task ht hin
    rw [hfree] at hheld
    cases hheld
  exact ⟨log, c, more, d, hlog, hmore, hquiet, Nat.zero_le _, hread,
    views_converge hrun (.of_replay hmore) hquiet (Nat.zero_le _)⟩

end Controller
end SicDebugger
