import SicDebugger.Proofs.Display

/-!
# The highlighted rows

A listing is told with the row at the program counter, but a step tells the registers and not the
listings. So the rows that a view holds are those at the program counter of the time when the
listings that it holds were told, which is the current one again when they are told the next time: by
a load, a reset or a breakpoint, or in the picture for a new view. In between the rows are right as
long as both program counters have the same one in every listing.
-/

namespace SicDebugger

namespace ViewMessage

/-- The listings that a message tells. -/
def listings? : ViewMessage → Option (List ListingView)
  | listings ls _ => some ls
  | _ => none

/-- The program counter that a message tells with the registers, if there is one. -/
def counter? : ViewMessage → Option (Option UInt32)
  | registers r _ _ => some (r.map (·.pc))
  | _ => none

end ViewMessage

/-! ## What a view holds -/

/-- The listings that a view holds which takes messages, the earliest first: those of the last
message that tells them. -/
def heldListings (messages : List ViewMessage) : List ListingView :=
  messages.foldl (fun held m => m.listings?.getD held) []

/-- The program counter that messages tell, the latest first. -/
def toldCounter (messages : List ViewMessage) : Option UInt32 :=
  (messages.findSome? ViewMessage.counter?).join

/-- The program counter that messages had told when they told the listings for the last time. -/
def counterAtListings : List ViewMessage → Option UInt32
  | [] => none
  | m :: earlier => if m.listings?.isSome then toldCounter earlier else counterAtListings earlier

/-- The rows that a view highlights are those at a program counter, for each listing of a session. -/
def RowsAt (pc : Option UInt32) (held : List ListingView) (s : Session) : Prop :=
  held.map (fun v => (v.file, v.pcRow)) =
    s.listings.listings.map fun l => (l.file, pc.bind l.pcRow?)

/-- A listing that is shown has its row at a program counter. -/
def ListingView.IsAt (pc : Option UInt32) (v : ListingView) : Prop :=
  v.pcRow = pc.bind (Listing.mk v.file v.rows).pcRow?

/-- The listings of each message had their rows at the program counter that had been told by then.
The latest message is the first. -/
def ToldAtCounter : List ViewMessage → Prop
  | [] => True
  | m :: earlier =>
    (∀ v ∈ m.listings?.getD [], v.IsAt (toldCounter earlier)) ∧ ToldAtCounter earlier

section

variable {pc pc' : Option UInt32} {held : List ListingView} {messages : List ViewMessage}
  {s : Session}

/-- Rows at one program counter are those at another one if every listing has the same row for
both. -/
lemma RowsAt.iff_same (h : RowsAt pc held s) :
    RowsAt pc' held s ↔ ∀ l ∈ s.listings.listings, pc.bind l.pcRow? = pc'.bind l.pcRow? := by
  rw [RowsAt, show held.map _ = _ from h, List.map_inj_left]
  simp only [Prod.mk.injEq, true_and]

/-- The rows of listings that are shown as they are. -/
lemma rowsAt_of_shown (state : ExecutionState) (hat : ∀ v ∈ held, v.IsAt pc)
    (hshown : held.map ListingView.shown = (Display.of state s).listings) : RowsAt pc held s := by
  let row (l : ShownListing) : String × Option Nat :=
    (l.file, pc.bind (Listing.mk l.file l.rows).pcRow?)
  calc held.map (fun v => (v.file, v.pcRow))
      = held.map (row ∘ ListingView.shown) :=
        List.map_congr_left fun v hv => congrArg (Prod.mk v.file) (hat v hv)
    _ = (held.map ListingView.shown).map row := List.map_map.symm
    _ = s.listings.listings.map fun l => (l.file, pc.bind l.pcRow?) := by
      rw [hshown]
      exact List.map_map

lemma isAt_listingView (s : Session) {v : ListingView}
    (hv : v ∈ s.listings.listings.map (ViewMessage.listingView s)) : v.IsAt s.registers.pc := by
  obtain ⟨l, _, rfl⟩ := List.mem_map.mp hv
  rfl

/-- The last message that tells the listings has their rows at the program counter of that time. -/
lemma ToldAtCounter.isAt (h : ToldAtCounter messages)
    (hheld : messages.findSome? ViewMessage.listings? = some held) :
    ∀ v ∈ held, v.IsAt (counterAtListings messages) := by
  induction messages with
  | nil => cases hheld
  | cons m earlier ih =>
    rw [List.findSome?_cons] at hheld
    rw [counterAtListings]
    cases hm : m.listings? with
    | some ls =>
      rw [hm] at hheld
      cases hheld
      have hfirst := h.1
      rw [hm] at hfirst
      exact hfirst
    | none =>
      rw [hm] at hheld
      exact ih h.2 hheld

/-- A view shows the listings that it holds. -/
lemma listings_foldl_take (D : Display) (held : List ListingView) (messages : List ViewMessage)
    (hD : D.listings = held.map ListingView.shown) :
    (messages.foldl Display.take D).listings =
      (messages.foldl (fun held m => m.listings?.getD held) held).map ListingView.shown := by
  induction messages generalizing D held with
  | nil => exact hD
  | cons m rest ih =>
    refine ih (D.take m) _ ?_
    cases m <;> first | exact hD | rfl

/-- What a view holds is what it was told last. -/
lemma heldListings_eq (messages : List ViewMessage) :
    heldListings messages = (messages.reverse.findSome? ViewMessage.listings?).getD [] := by
  suffices hfold : ∀ held, messages.foldl (fun held m => m.listings?.getD held) held =
      (messages.reverse.findSome? ViewMessage.listings?).getD held from hfold []
  induction messages with
  | nil => exact fun _ => rfl
  | cons m rest ih =>
    intro held
    rw [List.foldl_cons, ih, List.reverse_cons, List.findSome?_append, List.findSome?_singleton]
    cases rest.reverse.findSome? ViewMessage.listings? <;> rfl

end

namespace Controller

/-! ## Single events -/

/-- The views have been told the program counter as it is, now and whenever they were told the
listings. -/
structure Scene.IsCounted (s : Scene) (past : List ViewMessage) : Prop where
  now : toldCounter (s.told ++ past) = s.session.registers.pc
  before : ToldAtCounter (s.told ++ past)

namespace Scene.IsCounted

variable {s : Scene} {past : List ViewMessage}

/-- The registers are told, whatever they were. -/
lemma ofRegisters (h : ToldAtCounter (s.told ++ past)) :
    (s.tellOf ViewMessage.ofRegisters).IsCounted past := by
  refine ⟨?_, List.forall_mem_nil _, h⟩
  exact Option.join_some

variable (hs : s.IsCounted past)
include hs

lemma tell {m : ViewMessage} (hc : m.counter? = none) (hl : m.listings? = none) :
    (s.tell m).IsCounted past := by
  constructor
  · show ((m :: (s.told ++ past)).findSome? ViewMessage.counter?).join = _
    rw [List.findSome?_cons, hc]
    exact hs.now
  · refine ⟨?_, hs.before⟩
    rw [hl]
    exact List.forall_mem_nil _

lemma enter (state : ExecutionState) : (s.enter state).IsCounted past :=
  tell (s := { s with state }) ⟨hs.now, hs.before⟩ rfl rfl

lemma enterAll (states : List ExecutionState) : (s.enterAll states).IsCounted past := by
  induction states with
  | nil => exact hs
  | cons state states ih => exact ih.enter state

/-- A change that leaves the registers alone. -/
lemma change {f : Session → Session} (hf : (f s.session).registers = s.session.registers) :
    (s.change f).IsCounted past := by
  refine ⟨?_, hs.before⟩
  show _ = (f s.session).registers.pc
  rw [hf]
  exact hs.now

/-- The listings are told with their rows at the program counter. -/
lemma ofListings : (s.tellOf ViewMessage.ofListings).IsCounted past := by
  refine ⟨hs.now, fun v hv => ?_, hs.before⟩
  show v.IsAt (toldCounter (s.told ++ past))
  rw [hs.now]
  exact isAt_listingView s.session hv

lemma takeStep (next : RegisterSnapshot) : (s.takeStep next).IsCounted past := by
  have htold : ((s.change fun s => (s.applyStep next).1).tellOf
      ViewMessage.ofRegisters).IsCounted past := ofRegisters hs.before
  unfold Scene.takeStep
  cases (s.session.applyStep next).2.focused with
  | none => exact htold
  | some file => exact htold.tell rfl rfl

lemma takeErrors (files : List LoadedFile) : (s.takeErrors files).IsCounted past := by
  have htold : ((s.change (·.applyFailed files)).tellOf ViewMessage.ofErrors).IsCounted past :=
    (hs.change rfl).tell rfl rfl
  unfold Scene.takeErrors
  cases (Session.firstError? files).map fun p =>
      { p with file := s.session.diagnostics.key p.file } with
  | none => exact htold
  | some p => exact htold.tell rfl rfl

end Scene.IsCounted

/-- Whatever an event tells and changes, the views have been told the program counter as it is, and
as it was whenever they were told the listings. -/
lemma Tidings.isCounted {c : Controller} {e : Event} {s : Scene} {past : List ViewMessage}
    (h : Tidings c e s) (hc : c.scene.IsCounted past) : s.IsCounted past := by
  have hstored (target : ReadTarget) (result : Except Error (List UInt8)) :
      (c.scene.change (storeRead · target result)).IsCounted past := by
    refine hc.change ?_
    rw [storeRead_eq]
  cases h with
  | nothing => exact hc
  | load | run | stop | freed | left => exact hc.enter _
  | toggled => exact (hc.change rfl).ofListings
  | moved | checked | selected => exact (hc.change rfl).tell rfl rfl
  | moving => exact hc.change rfl
  | beginFailed | loadFailed | stepFailed => exact (hc.tell rfl rfl).enter _
  | refused => exact (hc.takeErrors _).enter _
  | @loaded _ registers files =>
    -- the registers change before the errors are told, and are told before the listings
    have hregisters : (((c.scene.change (·.applyLoaded registers files)).tellOf
        ViewMessage.ofErrors).tellOf ViewMessage.ofRegisters).IsCounted past :=
      .ofRegisters ⟨List.forall_mem_nil _, hc.before⟩
    exact hregisters.ofListings
  | ended => exact (hc.takeStep _).enter _
  | stepped => exact hc.takeStep _
  | reset =>
    have hregisters : ((c.scene.change Session.clear).tellOf ViewMessage.ofRegisters).IsCounted
        past := .ofRegisters hc.before
    exact ((hregisters.ofListings.tell rfl rfl).tell rfl rfl).enter _
  | read => exact hstored _ _
  | refreshed => exact (((hstored _ _).tell rfl rfl).tell rfl rfl).enterAll _
  | windowRead => exact (hstored _ _).tell rfl rfl

/-! ## Runs -/

variable {settings : ControllerSettings} {log more : List LogEntry} {c d : Controller}

/-- On every run the listings were told with their rows at the program counter of that time. -/
lemma toldAtCounter_of_run (h : Run (.ofSettings settings) log c) : ToldAtCounter (toldIn log) := by
  suffices hboth : toldCounter (toldIn log) = c.session.registers.pc ∧ ToldAtCounter (toldIn log) from
    hboth.2
  refine Run.invariant (P := fun log c =>
    toldCounter (toldIn log) = c.session.registers.pc ∧ ToldAtCounter (toldIn log))
    (fun _ hlog => hlog) ⟨rfl, trivial⟩ ?_ h
  intro log c e d found hc hlog hd
  -- the controller that an event finds has told nothing yet, so all has been told in the past
  subst hc
  have hevent : d.scene.IsCounted (toldIn log) :=
    (tidings_of_perform hd).isCounted ⟨hlog.1, hlog.2⟩
  rw [toldIn_timeline]
  exact ⟨hevent.now, hevent.before⟩

/-- The program counter of the time when the listings were told that a view holds: with a message
after its picture, or else with the picture. -/
def heldCounter (c : Controller) (after told : List ViewMessage) : Option UInt32 :=
  if after.any (·.listings?.isSome) then counterAtListings told else c.session.registers.pc

/-- A view that starts from a picture and takes the messages after it, and any number of the last
messages before it once more, highlights the rows at the program counter of the time when the
listings that it holds were told. -/
lemma rowsAt_heldCounter (h : Run (.ofSettings settings) log c) (hm : Run c more d) {n : Nat}
    (hn : n ≤ (published log).length) :
    RowsAt (heldCounter c ((published (more ++ log)).drop n) (toldIn (more ++ log)))
      (heldListings (c.picture ++ (published (more ++ log)).drop n)) d.session := by
  have hshown := isTold_listings.converges h hm (fun ⟨_, _, _, _, hopen⟩ => by cases hopen) hn
    { d.scene.display with listings := [] }
  have hsplit : toldIn (more ++ log) =
      ((published (more ++ log)).drop n).reverse ++ ((published (more ++ log)).take n).reverse := by
    rw [← List.reverse_append, List.take_append_drop, published, List.reverse_reverse]
  generalize (published (more ++ log)).drop n = after at hshown hsplit ⊢
  have hlast : heldListings (c.picture ++ after) =
      (after.reverse.findSome? ViewMessage.listings?).getD
        (c.session.listings.listings.map (ViewMessage.listingView c.session)) := by
    rw [heldListings_eq, List.reverse_append, List.findSome?_append]
    cases after.reverse.findSome? ViewMessage.listings? <;> rfl
  refine rowsAt_of_shown d.state ?_ ?_
  · rw [hlast]
    cases hfound : after.reverse.findSome? ViewMessage.listings? with
    | none =>
      have hnone : after.any (·.listings?.isSome) = false := by
        simpa [List.findSome?_eq_none_iff] using hfound
      rw [heldCounter, hnone]
      exact fun v hv => isAt_listingView c.session hv
    | some held =>
      have hsome : after.any (·.listings?.isSome) = true := by
        have hex := List.findSome?_isSome_iff.mp (Option.isSome_of_eq_some hfound)
        simpa using hex
      -- the last message after the picture that tells the listings is the last one of all
      have hall : (toldIn (more ++ log)).findSome? ViewMessage.listings? = some held := by
        rw [hsplit, List.findSome?_append, hfound, Option.some_or]
      rw [heldCounter, hsome]
      exact (toldAtCounter_of_run (h.append hm)).isAt hall
  · exact (listings_foldl_take _ [] _ rfl).symm.trans hshown

/-- The rows that a view highlights are those at the program counter of the time when the listings
that it holds were told, and the current ones exactly if in every listing that program counter has
the same row as the current one. A new picture has the current ones. -/
theorem rows_current_iff (h : Run (.ofSettings settings) log c) (hm : Run c more d) {n : Nat}
    (hn : n ≤ (published log).length) :
    let after := (published (more ++ log)).drop n
    let held := heldListings (c.picture ++ after)
    let pc := heldCounter c after (toldIn (more ++ log))
    RowsAt d.session.registers.pc (heldListings d.picture) d.session ∧
      RowsAt pc held d.session ∧
      (RowsAt d.session.registers.pc held d.session ↔ ∀ l ∈ d.session.listings.listings,
        pc.bind l.pcRow? = d.session.registers.pc.bind l.pcRow?) := by
  have hheld := rowsAt_heldCounter h hm hn
  refine ⟨?_, hheld, hheld.iff_same⟩
  exact rowsAt_of_shown d.state (fun v hv => isAt_listingView d.session hv)
    (Display.shown_listingView d.session)

/-- A load of two instructions, and one step. -/
def loadAndStep : List Event :=
  [.request .step, .began 0 (.ok ()),
    .loaded 0 (.ok (.loaded {} [{ name := "main.asm", rows := [
      { addressHex := "0", rawCodeHex := "01" }, { addressHex := "3", rawCodeHex := "02" }] }])),
    .read 0 0 (.ok []), .request .step, .stepped 1 (.ok { pc := 3 }), .read 1 0 (.ok [])]

/-- After the step the view highlights the second instruction as soon as a breakpoint is set, with
which the listings are told. -/
theorem rows_current_after_breakpoint : ∃ log d,
    replay (.ofSettings oneSource) (loadAndStep ++ [.request (.toggleBreakpoint "main.asm" 0)]) =
      some (log, d) ∧
    0 ≤ (published []).length ∧
    heldCounter (.ofSettings oneSource) (published log) (toldIn log) = some 3 ∧
    RowsAt d.session.registers.pc
      (heldListings ((ofSettings oneSource).picture ++ published log)) d.session := by
  obtain ⟨log, d, hlog, hend⟩ := exists_replay_eq (.ofSettings oneSource)
    (loadAndStep ++ [.request (.toggleBreakpoint "main.asm" 0)]) (by rfl)
  have hcounter : heldCounter (.ofSettings oneSource) (published (log, d).1) (toldIn (log, d).1) =
      some 3 := by
    rw [hend]
    rfl
  have hnow : (log, d).2.session.registers.pc = some 3 := by
    rw [hend]
    rfl
  have hall := rows_current_iff .start (.of_replay hlog) (Nat.zero_le _)
  rw [List.append_nil] at hall
  refine ⟨log, d, hlog, Nat.zero_le _, hcounter, hall.2.2.mpr fun l _ => ?_⟩
  exact congrArg (Option.bind · l.pcRow?) (hcounter.trans hnow.symm)

/-- After the step a view still highlights the first instruction, although the program counter is at
the second one and nothing is under way. -/
theorem rows_stale_after_step : ∃ log d,
    replay (.ofSettings oneSource) loadAndStep = some (log, d) ∧
    d.state = .paused ∧ d.tasks.isEmpty = true ∧
    d.session.registers.pc = some 3 ∧ d.session.listings.listings.map (·.pcRow? 3) = [some 1] ∧
    (heldListings ((ofSettings oneSource).picture ++ published log)).map (·.pcRow) = [some 0] ∧
    ¬ RowsAt d.session.registers.pc
      (heldListings ((ofSettings oneSource).picture ++ published log)) d.session := by
  obtain ⟨log, d, hlog, hend⟩ := exists_replay_eq (.ofSettings oneSource) loadAndStep (by rfl)
  have hquiet : ((log, d).2.state, (log, d).2.tasks.isEmpty, (log, d).2.session.registers.pc) =
      (.paused, true, some 3) := by
    rw [hend]
    rfl
  obtain ⟨hstate, htasks, hcounter⟩ := by simpa only [Prod.mk.injEq] using hquiet
  have hrow : (log, d).2.session.listings.listings.map (·.pcRow? 3) = [some 1] := by
    rw [hend]
    rfl
  have hheld : (heldListings ((ofSettings oneSource).picture ++ published (log, d).1)).map
      (·.pcRow) = [some 0] := by
    rw [hend]
    rfl
  refine ⟨log, d, hlog, hstate, htasks, hcounter, hrow, hheld, fun hrows => ?_⟩
  -- the rows held and the rows at the counter are both known
  have hsame : [some 0] = [some 1] :=
    calc [some 0]
        = ((heldListings ((ofSettings oneSource).picture ++ published log)).map
            fun v => (v.file, v.pcRow)).map (·.2) := by
          rw [List.map_map]
          exact hheld.symm
      _ = (d.session.listings.listings.map
            fun l => (l.file, d.session.registers.pc.bind l.pcRow?)).map (·.2) :=
          congrArg (List.map (·.2)) hrows
      _ = [some 1] := by
          rw [List.map_map, hcounter]
          exact hrow
  cases hsame

end Controller
end SicDebugger
