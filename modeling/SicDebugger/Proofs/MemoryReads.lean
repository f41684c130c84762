import SicDebugger.Proofs.Effects
import SicDebugger.Proofs.Windows

/-!
# Reads of memory

Memory is read when the views are refreshed and when the window is moved. Every request for it is
one that the simulator can be sent: it does not end before it starts. A refresh sends one for the
window and one for each variable that has a range, in the order of the declarations; a variable
without bytes, or with bytes that are too many or pass the last address, is left out.
-/

namespace SicDebugger

namespace Controller

variable {settings : ControllerSettings} {log : List LogEntry} {c d : Controller} {t : TaskId}
  {role : Role} {e : Event} {news : List Occurrence}

/-! ## The reads among what happens -/

/-- The ends of the range that is read, if it is a read that is sent. -/
def readOf? : Occurrence → Option (UInt32 × UInt32)
  | .sent _ _ (.memory first last) => some (first, last)
  | _ => none

/-- The ends of the ranges that are read, in the order in which the reads are sent. -/
def readsIn (news : List Occurrence) : List (UInt32 × UInt32) := news.filterMap readOf?

/-- The ends of the ranges that a refresh is to read: the window, and then each variable that has a
range. -/
def refreshRanges (s : Session) : List (UInt32 × UInt32) :=
  s.memory.range.ends ::
    ((s.watches.entries.map (·.declared)).filter (·.HasRange)).map fun v => (v.address, v.lastAddress)

/-- Whether the event begins a refresh of the views: a load that brings a program, or a step that
does not end it. -/
def beginsRefresh (c : Controller) : Event → Prop
  | .loaded _ (.ok (.loaded ..)) => True
  | .stepped _ (.ok next) => (c.session.applyStep next).2.verdict ≠ .finished
  | _ => False

lemma mem_readsIn {first last : UInt32} (h : (first, last) ∈ readsIn news) :
    ∃ t slot, .sent t slot (.memory first last) ∈ news := by
  obtain ⟨o, ho, hread⟩ := List.mem_filterMap.mp h
  unfold readOf? at hread
  split at hread
  · cases hread
    exact ⟨_, _, ho⟩
  · cases hread

/-! ## Refreshes -/

/-- The targets of a refresh have the ranges that it is to read. -/
lemma ends_refreshTargets (s : Session) :
    (refreshTargets s).map (·.range.ends) = refreshRanges s := by
  rw [refreshTargets, refreshRanges, List.map_cons, List.map_map]
  congr 1
  rw [WatchRegistry.reads]
  induction s.watches.entries with
  | nil => rfl
  | cons e rest ih =>
    have hends := e.declared.map_ends_range?
    rw [List.filterMap_cons, List.map_cons, List.filter_cons]
    cases hrange : e.declared.range? with
    | none =>
      rw [hrange] at hends
      by_cases h : e.declared.HasRange
      · rw [if_pos h] at hends
        cases hends
      · simpa [h] using ih
    | some r =>
      rw [hrange] at hends
      by_cases h : e.declared.HasRange
      · rw [if_pos h, Option.map_some, Option.some.injEq] at hends
        simp only [Option.map_some, List.map_cons, Function.comp_apply, ReadTarget.range, hends, h,
          decide_true, ↓reduceIte, ← ih]
      · rw [if_neg h] at hends
        cases hends

lemma ends_pendingReads (targets : List ReadTarget) :
    (pendingReads targets).map (·.target.range.ends) = targets.map (·.range.ends) := by
  have htargets : (pendingReads targets).map (·.target) = targets := by
    rw [pendingReads, List.map_map]
    exact List.zipIdx_map_fst 0 targets
  rw [← congrArg (List.map fun target : ReadTarget => target.range.ends) htargets, List.map_map]
  rfl

/-- Reads are sent one after the other. -/
lemma readsIn_sendReads (c : Controller) (t : TaskId) (pending : List PendingRead) :
    readsIn (c.sendReads t pending).history =
      (pending.map (·.target.range.ends)).reverse ++ readsIn c.history := by
  induction pending generalizing c with
  | nil => rfl
  | cons p rest ih =>
    show readsIn (sendReads _ t rest).history = _
    rw [ih, List.map_cons, List.reverse_cons, List.append_assoc]
    rfl

lemma readsIn_refresh (c : Controller) (t : TaskId) (role : Role) (next : AfterRefresh) :
    readsIn (c.refresh t role next).history =
      (refreshRanges c.session).reverse ++ readsIn c.history := by
  rw [refresh_eq]
  show readsIn (c.sendReads t _).history = _
  rw [readsIn_sendReads, ends_pendingReads, ends_refreshTargets]

lemma readsIn_takeStep (c : Controller) (next : RegisterSnapshot) :
    readsIn (c.takeStep next).history = readsIn c.history :=
  takeStep_induction (P := fun d => readsIn d.history = readsIn c.history) rfl fun _ _ h => h

/-- A refresh reads what is then to be read, once. -/
lemma readsIn_of_beginsRefresh (hd : c.perform? e = some d) (hh : c.history = [])
    (he : c.beginsRefresh e) : readsIn d.history = (refreshRanges d.session).reverse := by
  cases e with
  | loaded t result =>
    obtain ⟨role, goal, -, rfl⟩ := perform?_loaded hd
    cases result with
    | error err => exact he.elim
    | ok outcome =>
      cases outcome with
      | failed files => exact he.elim
      | loaded registers files =>
        show readsIn (refresh _ t .request (.load goal)).history =
          (refreshRanges (refresh _ t .request (.load goal)).session).reverse
        rw [readsIn_refresh, refresh_session]
        show _ ++ readsIn c.history = _
        rw [hh]
        exact List.append_nil _
  | stepped t result =>
    obtain ⟨role, -, rfl⟩ := perform?_stepped hd
    cases result with
    | error err => exact he.elim
    | ok next =>
      rw [afterStep_ok]
      split
      · next hv => exact absurd hv he
      · rw [readsIn_refresh, refresh_session, readsIn_takeStep, hh]
        exact List.append_nil _
  | _ => exact he.elim

/-! ## Other events -/

/-- A moved window is read at once, or not at all. -/
lemma readsIn_setWindow (c : Controller) (t : TaskId) (first last : UInt32) :
    readsIn (c.setWindow t first last).history = readsIn c.history ∨
      readsIn (c.setWindow t first last).history = (first, last) :: readsIn c.history := by
  unfold setWindow
  split
  · exact .inl rfl
  · rename_i range hrange
    unfold AddressRange.between at hrange
    split at hrange
    · cases hrange
      dsimp only
      split
      · exact .inr rfl
      · exact .inl rfl
    · cases hrange

/-- A read that is prompted ends where it starts or behind, and either a refresh begins or the window
is moved. -/
lemma Prompts.memory {first last : UInt32} (h : Prompts c e (.memory first last)) :
    first ≤ last ∧ (c.beginsRefresh e ∨ ∃ first last, e = .request (.setWindow first last)) := by
  generalize hr : SimulatorRequest.memory first last = r at h
  have hle (range : AddressRange) (hr : .memory first last = readRequest range) : first ≤ last := by
    cases hr
    exact range.first_le_last
  cases h with
  | window _ _ _ => exact ⟨hle _ hr, .inr ⟨_, _, rfl⟩⟩
  | loaded => exact ⟨hle _ hr, .inl trivial⟩
  | stepped hv => exact ⟨hle _ hr, .inl hv⟩
  | _ => cases hr

/-- Beside refreshes only a moved window is read. -/
lemma readsIn_of_not_beginsRefresh (hs : Sound c) (hd : c.perform? e = some d)
    (hh : c.history = []) (he : ¬ c.beginsRefresh e) : readsIn d.history = [] ∨
      ∃ first last, e = .request (.setWindow first last) ∧ readsIn d.history = [(first, last)] := by
  by_cases hmoved : ∃ first last, e = .request (.setWindow first last)
  · obtain ⟨first, last, rfl⟩ := hmoved
    cases hd
    rcases readsIn_setWindow { c with nextTask := c.nextTask + 1 } c.nextTask first last with
      hnone | hone
    · left
      show readsIn (setWindow _ _ _ _).history = _
      rw [hnone, hh]
      rfl
    · refine .inr ⟨first, last, rfl, ?_⟩
      show readsIn (setWindow _ _ _ _).history = _
      rw [hone, hh]
      rfl
  · refine .inl (List.eq_nil_iff_forall_not_mem.mpr ?_)
    rintro ⟨first, last⟩ hread
    obtain ⟨t, slot, hsent⟩ := mem_readsIn hread
    obtain ⟨-, hprompts⟩ := prompts_of_sent hs hd hh hsent
    exact hprompts.memory.2.elim he hmoved

/-- What an event reads: all that a refresh is to read if one begins, and else at most the window
that is moved. -/
lemma readsIn_of_happen (hs : Sound c) (hd : c.happen? e = some (d, news)) :
    (c.beginsRefresh e → readsIn news = refreshRanges d.session) ∧
      (¬ c.beginsRefresh e → readsIn news = [] ∨
        ∃ first last, e = .request (.setWindow first last) ∧ readsIn news = [(first, last)]) := by
  obtain ⟨d', hd', rfl, rfl⟩ := happen?_eq_some hd
  -- the history has the latest first
  have hreverse (h : List Occurrence) : readsIn h.reverse = (readsIn h).reverse :=
    List.filterMap_reverse
  rw [hreverse]
  constructor
  · intro he
    rw [readsIn_of_beginsRefresh hd' rfl he, List.reverse_reverse]
  · intro he
    rcases readsIn_of_not_beginsRefresh (hs.forget []) hd' rfl he with hnone | ⟨first, last, he, hone⟩
    · exact .inl (by rw [hnone]; rfl)
    · exact .inr ⟨first, last, he, by rw [hone]; rfl⟩

/-! ## Whole runs -/

/-- A request that is prompted can be sent. -/
lemma Prompts.refusal?_eq_none {r : SimulatorRequest} (h : Prompts c e r) : r.refusal? = none := by
  cases r with
  | memory first last => exact if_pos h.memory.1
  | _ => rfl

/-- Every request of a run is prompted by an event. -/
lemma exists_prompts_of_run (hrun : Run (.ofSettings settings) log c) {slot : Nat}
    {r : SimulatorRequest} (hsent : .occurrence (.sent t slot r) ∈ log) :
    ∃ found e, Prompts found e r := by
  induction hrun with
  | start => cases hsent
  | @next log c d e news hrun hd ih =>
    rcases List.mem_append.mp hsent with hsent | hsent
    · obtain ⟨d', hd', -, rfl⟩ := happen?_eq_some hd
      rw [List.reverse_reverse] at hsent
      obtain ⟨o, ho, ⟨⟩⟩ := List.mem_map.mp hsent
      exact ⟨_, e, (prompts_of_sent ((sound_of_run hrun).forget []) hd' rfl ho).2⟩
    · rcases List.mem_cons.mp hsent with hsent | hsent
      · cases hsent
      · exact ih hsent

/-- **Every request for memory is well formed.** A window is accepted iff it has a byte and its last
byte has an address, everything else being right, and then it goes from the start that is given to
this byte. In every run from such a configuration each request can be sent, so no read ends before
it starts; the events that begin a refresh read the window once and each variable that has a range
once, and no others; and beside them only a window that is moved is read. Reckoned in words, the
range of a variable and that of the window come out as they are, and no subtraction fails. -/
theorem memory_requests_are_well_formed (s : Surroundings) :
    ((∃ config, Configuration.read s = .ok config) ↔ Configuration.OtherwiseRight s ∧
      ∃ start length, Configuration.Gives s "SICIDE_MEMORY_START" 0 start ∧
        Configuration.Gives s "SICIDE_MEMORY_LEN" 256 length ∧
        1 ≤ length ∧ start + length - 1 < UInt32.size) ∧
    (∀ config, Configuration.read s = .ok config →
      (∃ start length, Configuration.Gives s "SICIDE_MEMORY_START" 0 start ∧
        Configuration.Gives s "SICIDE_MEMORY_LEN" 256 length ∧
        config.controller.window.first.toNat = start ∧
        config.controller.window.last.toNat = start + length - 1) ∧
      ∀ log c, Run (.ofSettings config.controller) log c →
        (∀ t slot r, .occurrence (.sent t slot r) ∈ log →
          r.refusal? = none ∧ ∀ first last, r = .memory first last → first ≤ last) ∧
        ∀ e d news, c.happen? e = some (d, news) →
          (c.beginsRefresh e → readsIn news = refreshRanges d.session) ∧
          (¬ c.beginsRefresh e → readsIn news = [] ∨
            ∃ first last, e = .request (.setWindow first last) ∧ readsIn news = [(first, last)])) ∧
    (∀ v : WatchVariable, v.spanInWords = some (v.range?.map (·.ends)) ∧
      (v.HasRange → v.lastAddress.toNat = v.address.toNat + v.byteCount - 1)) ∧
    ∀ first length, spanInWords first length =
      some ((AddressRange.ofLength? first length.toNat).map (·.ends)) := by
  refine ⟨Configuration.exists_read_ok_iff, ?_,
    fun v => ⟨v.spanInWords_eq, WatchVariable.toNat_lastAddress⟩, spanInWords_eq⟩
  intro config hread
  obtain ⟨start, length, hstart, hlength, -, -, hfirst, hlast⟩ := Configuration.gives_of_read hread
  refine ⟨⟨start, length, hstart, hlength, hfirst, hlast⟩, fun log c hrun => ⟨?_, ?_⟩⟩
  · intro t slot r hsent
    obtain ⟨found, e, hprompts⟩ := exists_prompts_of_run hrun hsent
    refine ⟨hprompts.refusal?_eq_none, ?_⟩
    rintro first last rfl
    exact hprompts.memory.1
  · exact fun e d news hd => readsIn_of_happen (sound_of_run hrun) hd

/-- A project whose memory window starts sixteen bytes before the end of the address space. -/
def beforeTheEnd (length : String) : Surroundings :=
  { Configuration.onCommandLine "proj" with
    setting? := fun setting =>
      if setting = "SICIDE_MEMORY_START" then some " 0xFFFFFFF0"
      else if setting = "SICIDE_MEMORY_LEN" then some length
      else none }

lemma otherwiseRight_beforeTheEnd (length : String) :
    Configuration.OtherwiseRight (beforeTheEnd length) := by
  obtain ⟨config, hread⟩ := Configuration.exists_read_onCommandLine "proj" (by decide +kernel)
  obtain ⟨⟨⟨entries, hentries⟩, hmode, hdelay, hbind⟩, -⟩ :=
    Configuration.exists_read_iff.mp ⟨config, hread, rfl⟩
  have hunset : Configuration.given? (beforeTheEnd length) "SICIDE_BIND" =
      Configuration.given? (Configuration.onCommandLine "proj") "SICIDE_BIND" := rfl
  refine ⟨⟨entries, by simpa only [beforeTheEnd] using hentries⟩, hmode, hdelay, ?_⟩
  unfold Configuration.bindAddress
  rwa [hunset]

/-- Up to the last address there is room for a window of sixteen bytes, but not for one of
seventeen. -/
theorem window_may_end_at_last_address :
    (∃ config, Configuration.read (beforeTheEnd "+016") = .ok config) ∧
      ¬ ∃ config, Configuration.read (beforeTheEnd "17") = .ok config := by
  have hstart (length : String) :
      Configuration.address (beforeTheEnd length) "SICIDE_MEMORY_START" 0 = .ok 4294967280 := by
    rfl
  constructor
  · refine (memory_requests_are_well_formed _).1.mpr ⟨otherwiseRight_beforeTheEnd _, 4294967280, 16,
      Configuration.address_eq_ok_iff.mp (hstart _), Configuration.address_eq_ok_iff.mp (by rfl),
      by decide, by decide⟩
  · intro hread
    obtain ⟨-, start, length, hgives, hlength, -, hend⟩ :=
      (memory_requests_are_well_formed _).1.mp hread
    have hfirst := (hstart "17").symm.trans (Configuration.address_eq_ok_iff.mpr hgives)
    have hcount : Except.ok 17 = Except.ok length :=
      .trans (by rfl) (Configuration.address_eq_ok_iff.mpr hlength)
    obtain rfl := Except.ok.inj hfirst
    obtain rfl := Except.ok.inj hcount
    exact absurd hend (by decide)

end Controller
end SicDebugger
