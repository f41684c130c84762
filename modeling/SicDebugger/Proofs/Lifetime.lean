import SicDebugger.Proofs.Listings
import SicDebugger.Proofs.Tidings

/-!
# The life of a breakpoint

The listings of a session change by the operations of an index alone: a load that brings a program
replaces them and focuses on its start, a step focuses, a reset clears, and requests toggle and
select. So the index of every session is valid, and a breakpoint lives through steps, halts, resets
and failed loads until it is toggled or the program is loaded anew.
-/

namespace SicDebugger

/-- Whether an event can change the breakpoints: it asks for a toggle, or brings a program. -/
def Event.setsBreakpoints : Event → Bool
  | .request (.toggleBreakpoint ..) => true
  | .loaded _ (.ok (.loaded ..)) => true
  | _ => false

/-- Whether an entry of a log is an event that can change the breakpoints. -/
def LogEntry.setsBreakpoints : LogEntry → Bool
  | .event _ e => e.setsBreakpoints
  | .occurrence _ => false

namespace ListingIndex

variable {x y z : ListingIndex} {sets sets' : Prop}

/-- Operations lead from one index to another. Only if `sets` holds do they include some that change
breakpoints. -/
def Leads (sets : Prop) (x y : ListingIndex) : Prop :=
  ∃ operations : List ListingOperation, (∀ o ∈ operations, sets ∨ o.KeepsBreakpoints) ∧
    y = operations.foldl ListingOperation.apply x

lemma Leads.refl (sets : Prop) (x : ListingIndex) : Leads sets x x := by
  refine ⟨[], ?_, rfl⟩
  intro o ho
  cases ho

lemma Leads.step {o : ListingOperation} (h : Leads sets x y) (ho : sets ∨ o.KeepsBreakpoints) :
    Leads sets x (o.apply y) := by
  obtain ⟨operations, hall, rfl⟩ := h
  refine ⟨operations ++ [o], ?_, ?_⟩
  · intro o' ho'
    rcases List.mem_append.mp ho' with ho' | ho'
    · exact hall o' ho'
    · rw [List.mem_singleton.mp ho']
      exact ho
  · rw [List.foldl_append, List.foldl_cons, List.foldl_nil]

lemma Leads.single {o : ListingOperation} (ho : sets ∨ o.KeepsBreakpoints) :
    Leads sets x (o.apply x) :=
  (Leads.refl sets x).step ho

lemma Leads.trans (h : Leads sets x y) (h' : Leads sets' y z) : Leads (sets ∨ sets') x z := by
  obtain ⟨first, hfirst, rfl⟩ := h
  obtain ⟨second, hsecond, rfl⟩ := h'
  refine ⟨first ++ second, ?_, List.foldl_append.symm⟩
  intro o ho
  rcases List.mem_append.mp ho with ho | ho
  · exact (hfirst o ho).imp_left .inl
  · exact (hsecond o ho).imp_left .inr

lemma Leads.valid (h : Leads sets x y) (hx : x.Valid) : y.Valid := by
  obtain ⟨operations, _, rfl⟩ := h
  exact hx.foldl operations

lemma Leads.breakpoints_eq (h : Leads sets x y) (hsets : ¬ sets) :
    y.breakpoints = x.breakpoints := by
  obtain ⟨operations, hall, rfl⟩ := h
  apply breakpoints_foldl
  intro o ho
  exact (hall o ho).resolve_left hsets

end ListingIndex

/-! ## What happens to the listings of a session -/

namespace Session

/-- A step moves the focus, unless it ends the program. -/
lemma leads_applyStep (sets : Prop) (s : Session) (next : RegisterSnapshot) :
    s.listings.Leads sets (s.applyStep next).1.listings := by
  unfold applyStep
  split
  · exact .refl sets _
  · exact .single (o := .focus next.pc) (.inr trivial)

/-- A program that is loaded brings its listings, and the focus moves to its start. -/
lemma leads_applyLoaded {sets : Prop} (hsets : sets) (s : Session) (registers : RegisterSnapshot)
    (files : List LoadedFile) :
    s.listings.Leads sets (s.applyLoaded registers files).listings := by
  apply ListingIndex.Leads.step (o := .focus registers.pc)
  · exact .single (o := .replace (files.map fun f => ⟨f.name, f.rows⟩)) (.inl hsets)
  · exact .inl hsets

end Session

namespace Controller

variable {log : List LogEntry} {c d start : Controller} {e : Event} {s : Scene}

lemma listings_storeRead (s : Session) (target : ReadTarget)
    (result : Except Error (List UInt8)) : (storeRead s target result).listings = s.listings := by
  rw [storeRead_eq]

lemma listings_takeErrors (s : Scene) (files : List LoadedFile) :
    (s.takeErrors files).session.listings = s.session.listings := by
  unfold Scene.takeErrors
  cases Option.map _ (Session.firstError? files) <;> rfl

/-- What an event does to the listings. -/
lemma Tidings.leads (h : Tidings c e s) :
    c.session.listings.Leads (e.setsBreakpoints = true) s.session.listings := by
  cases h with
  | @toggled file row => exact .single (o := .toggle file row) (.inl rfl)
  | @selected file listings hl =>
    have hselect : (ListingOperation.select file).apply c.session.listings = listings := by
      rw [ListingOperation.apply, hl, Option.getD_some]
    show c.session.listings.Leads _ listings
    rw [← hselect]
    exact .single (.inr trivial)
  | @loaded t registers files => exact Session.leads_applyLoaded rfl c.session registers files
  | @stepped t next =>
    rw [Scene.session_takeStep]
    exact c.session.leads_applyStep _ next
  | @ended t role next =>
    show c.session.listings.Leads _ (c.scene.takeStep next).session.listings
    rw [Scene.session_takeStep]
    exact c.session.leads_applyStep _ next
  | reset => exact .single (o := .clear) (.inr trivial)
  | @refused t role goal files =>
    show c.session.listings.Leads _ (c.scene.takeErrors files).session.listings
    rw [listings_takeErrors]
    exact .refl _ _
  | @read t role pending next slot result p =>
    show c.session.listings.Leads _ (storeRead c.session p.target result).listings
    rw [listings_storeRead]
    exact .refl _ _
  | @refreshed t role pending next slot result p =>
    rw [Scene.session_enterAll]
    show c.session.listings.Leads _ (storeRead c.session p.target result).listings
    rw [listings_storeRead]
    exact .refl _ _
  | @windowRead t role range result =>
    show c.session.listings.Leads _ (storeRead c.session (.window range) result).listings
    rw [listings_storeRead]
    exact .refl _ _
  | _ => exact .refl _ _

/-- What a run does to the listings. -/
theorem Run.leads (h : Run start log c) :
    start.session.listings.Leads (log.any LogEntry.setsBreakpoints = true)
      c.session.listings := by
  refine h.invariant (P := fun log c => start.session.listings.Leads
    (log.any LogEntry.setsBreakpoints = true) c.session.listings) (fun _ hc => hc) (.refl _ _) ?_
  intro log c e d found hc hlead hd
  have hone : c.session.listings.Leads (e.setsBreakpoints = true) d.session.listings :=
    (tidings_of_perform hd).leads
  obtain ⟨operations, hall, hlistings⟩ := hlead.trans hone
  refine ⟨operations, ?_, hlistings⟩
  intro o ho
  refine (hall o ho).imp_left ?_
  intro hsets
  rw [timeline, List.any_append, List.any_cons, Bool.or_eq_true, Bool.or_eq_true]
  rcases hsets with hsets | hsets
  · exact .inr (.inr hsets)
  · exact .inr (.inl hsets)

/-- Breakpoints outlive listings. Whatever is done to an index, its active listing exists while
there is one, it keeps no file without breakpoints, and no breakpoint is behind the last row of its
file; new listings drop the breakpoints whose rows they do not have and keep the active file where
they have it. In a run only toggles and loads that bring a program change the breakpoints. -/
theorem breakpoints_outlive_listings :
    (∀ operations : List ListingOperation,
      (operations.foldl ListingOperation.apply {}).Valid) ∧
    (∀ (x : ListingIndex) (listings : List Listing), x.Takes listings (x.replace listings)) ∧
    (∀ (x : ListingIndex) (o : ListingOperation), o.KeepsBreakpoints →
      (o.apply x).breakpoints = x.breakpoints) ∧
    (∀ settings log c, Run (.ofSettings settings) log c → c.session.listings.Valid) ∧
    ∀ start log c, Run start log c → log.any LogEntry.setsBreakpoints = false →
      c.session.listings.breakpoints = start.session.listings.breakpoints := by
  refine ⟨?_, ?_, ?_, ?_, ?_⟩
  · intro operations
    exact ListingIndex.valid_empty.foldl operations
  · exact ListingIndex.takes_replace
  · intro x o ho
    exact ListingIndex.breakpoints_apply ho x
  · intro settings log c h
    exact h.leads.valid ListingIndex.valid_empty
  · intro start log c h hsets
    apply h.leads.breakpoints_eq
    rw [hsets]
    exact Bool.false_ne_true

/-- A breakpoint is set before a program is loaded, and lives through a load that fails. -/
theorem breakpoint_lives_through_a_failed_load : ∃ log c more d,
    replay (.ofSettings oneSource) [.request (.toggleBreakpoint "main.asm" 3)] = some (log, c) ∧
    replay c [.request .run, .began 1 (.ok ()), .loaded 1 (.ok (.failed []))] = some (more, d) ∧
    more.any LogEntry.setsBreakpoints = false ∧
    c.session.listings.breakpoints.has "main.asm" 3 = true ∧
    d.session.listings.breakpoints = c.session.listings.breakpoints ∧ d.session.listings.Valid ∧
    ((ListingOperation.focus 0).apply d.session.listings).breakpoints =
      d.session.listings.breakpoints := by
  obtain ⟨⟨log, c⟩, hlog⟩ := Option.isSome_iff_exists.mp (show (replay (.ofSettings oneSource)
    [.request (.toggleBreakpoint "main.asm" 3)]).isSome = true by rfl)
  have hc : c = ((replay (.ofSettings oneSource)
      [.request (.toggleBreakpoint "main.asm" 3)]).get (by rfl)).2 := by
    simp only [hlog, Option.get_some]
  obtain ⟨⟨more, d⟩, hmore⟩ := Option.isSome_iff_exists.mp
    (show (replay c [.request .run, .began 1 (.ok ()), .loaded 1 (.ok (.failed []))]).isSome =
      true by subst hc; rfl)
  have hsets : more.any LogEntry.setsBreakpoints = false := by
    have heq : more = ((replay c [.request .run, .began 1 (.ok ()),
        .loaded 1 (.ok (.failed []))]).get (by subst hc; rfl)).1 := by
      simp only [hmore, Option.get_some]
    rw [heq]
    subst hc
    rfl
  have hset : c.session.listings.breakpoints.has "main.asm" 3 = true := by
    rw [hc]
    rfl
  obtain ⟨_, _, hkeeps, hvalid, hlives⟩ := breakpoints_outlive_listings
  have hrun := Run.of_replay hmore
  exact ⟨log, c, more, d, hlog, hmore, hsets, hset, hlives c more d hrun hsets,
    hvalid _ _ _ ((Run.of_replay hlog).append hrun), hkeeps _ (.focus 0) trivial⟩

end Controller
end SicDebugger
