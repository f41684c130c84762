import SicDebugger.Proofs.Listings
import SicDebugger.Proofs.Run

/-!
# What the activities leave alone

Each activity of a task changes few parts of the controller. Most change the entry of their task; to
end a loop, to send reads and to tell the views only adds to what has happened.
-/

namespace SicDebugger

namespace Controller

variable {c : Controller} {t u : TaskId} {role : Role} {w : Wait} {task : Task}

/-! ## Entries of tasks -/

lemma getElem?_erase_of_ne {tasks : Std.ExtTreeMap TaskId Task} (h : u ≠ t) :
    (tasks.erase t)[u]? = tasks[u]? := by
  rw [Std.ExtTreeMap.getElem?_erase, if_neg]
  rw [Nat.compare_eq_eq]
  exact fun e => h e.symm

lemma getElem?_insert_of_ne {tasks : Std.ExtTreeMap TaskId Task} (h : u ≠ t) :
    (tasks.insert t task)[u]? = tasks[u]? := by
  rw [Std.ExtTreeMap.getElem?_insert, if_neg]
  rw [Nat.compare_eq_eq]
  exact fun e => h e.symm

/-- The controller without a task. -/
def drop (c : Controller) (t : TaskId) : Controller := { c with tasks := c.tasks.erase t }

lemma drop_tasks_self (c : Controller) (t : TaskId) : (c.drop t).tasks[t]? = none :=
  Std.ExtTreeMap.getElem?_erase_self

lemma drop_tasks_of_ne (h : u ≠ t) : (c.drop t).tasks[u]? = c.tasks[u]? := getElem?_erase_of_ne h

/-- A task that is left is another one than the task that was left out. -/
lemma drop_tasks_eq_some (h : (c.drop t).tasks[u]? = some task) :
    u ≠ t ∧ c.tasks[u]? = some task := by
  have hut : u ≠ t := by
    rintro rfl
    rw [drop_tasks_self] at h
    cases h
  exact ⟨hut, drop_tasks_of_ne hut ▸ h⟩

lemma suspend_tasks_self (c : Controller) (t : TaskId) (role : Role) (w : Wait) :
    (c.suspend t role w).tasks[t]? = some ⟨role, w⟩ :=
  Std.ExtTreeMap.getElem?_insert_self

lemma suspend_tasks_of_ne (h : u ≠ t) : (c.suspend t role w).tasks[u]? = c.tasks[u]? :=
  getElem?_insert_of_ne h

/-- A task that waits is the one that was made to wait, or was there before. -/
lemma suspend_tasks_eq_some (h : (c.suspend t role w).tasks[u]? = some task) :
    u = t ∧ task = ⟨role, w⟩ ∨ u ≠ t ∧ c.tasks[u]? = some task := by
  by_cases hut : u = t
  · subst hut
    rw [suspend_tasks_self, Option.some.injEq] at h
    exact .inl ⟨rfl, h.symm⟩
  · exact .inr ⟨hut, suspend_tasks_of_ne hut ▸ h⟩

/-! ## The guard -/

/-- With nobody in line, the guard is free once it is given back. -/
lemma release_of_line (h : c.line = []) : c.release = { c with guard := none } := by
  rw [release, h]

@[simp] lemma release_session (c : Controller) : c.release.session = c.session := by
  unfold release
  split <;> rfl

/-! ## Loops -/

/-- The controller with a new loop, which has the handle and waits for its first turn. -/
def withLoop (c : Controller) : Controller :=
  ({ c with nextTask := c.nextTask + 1, handle := some c.nextTask }.suspend c.nextTask
    (.loop none) .turn).note (.ready c.nextTask)

lemma startLoop_eq (c : Controller) (t : TaskId) :
    c.startLoop t = (c.setState .running).withLoop.conclude t .request (.ok .done) := rfl

lemma withLoop_tasks_self (c : Controller) :
    c.withLoop.tasks[c.nextTask]? = some ⟨.loop none, .turn⟩ :=
  Std.ExtTreeMap.getElem?_insert_self

lemma withLoop_tasks_of_ne (h : u ≠ c.nextTask) : c.withLoop.tasks[u]? = c.tasks[u]? :=
  getElem?_insert_of_ne h

/-- What holds without a loop, and is kept when tasks become ready, holds once it has ended. -/
lemma endLoop_induction {P : Controller → Prop} (h : P (c.drop t))
    (note : ∀ d u, P d → P (d.note (.ready u))) : P (c.endLoop t) := by
  -- who is told depends on what the tasks wait for, so the induction is over any tasks
  suffices hall : ∀ (us : List TaskId) (d : Controller), P d →
      P (us.foldl (fun c u => c.note (.ready u)) d) by
    exact hall _ _ h
  intro us
  induction us with
  | nil => exact fun _ hd => hd
  | cons u us ih => exact fun d hd => ih _ (note d u hd)

/-- The end of a loop is told to those who wait for it, and nothing else comes of it. -/
lemma endLoop_eq (c : Controller) (t : TaskId) :
    c.endLoop t = { c.drop t with history := (c.endLoop t).history } :=
  endLoop_induction (P := fun d => d = { c.drop t with history := d.history }) rfl
    fun d u hd => by rw [hd]; rfl

@[simp] lemma endLoop_session (c : Controller) (t : TaskId) :
    (c.endLoop t).session = c.session := by
  rw [endLoop_eq]
  rfl

@[simp] lemma conclude_session (c : Controller) (t : TaskId) (role : Role)
    (result : Except Error Reply) : (c.conclude t role result).session = c.session := by
  cases role with
  | request => exact release_session c
  | loop asked => exact (endLoop_session _ t).trans (release_session c)

@[simp] lemma conclude_state (c : Controller) (t : TaskId) (role : Role)
    (result : Except Error Reply) : (c.conclude t role result).state = c.state := by
  have hrelease : c.release.state = c.state := by
    unfold release
    split <;> rfl
  cases role with
  | request => exact hrelease
  | loop asked =>
    show (c.release.endLoop t).state = c.state
    rw [endLoop_eq]
    exact hrelease

/-- To ask a loop to halt changes its entry and may wake it. -/
lemma askHalt_eq (c : Controller) (loop : TaskId) (halt : Halt) :
    c.askHalt loop halt = { c with
      tasks := (c.askHalt loop halt).tasks
      history := (c.askHalt loop halt).history } := by
  unfold askHalt
  split
  · split <;> rfl
  · rfl

lemma askHalt_history (c : Controller) (loop : TaskId) (halt : Halt) :
    (c.askHalt loop halt).history = c.history ∨
      (c.askHalt loop halt).history = .ready loop :: c.history := by
  unfold askHalt
  split
  · split
    · exact .inr rfl
    · exact .inl rfl
  · exact .inl rfl

lemma askHalt_timeline (c : Controller) (loop : TaskId) (halt : Halt) (past : List LogEntry) :
    (c.askHalt loop halt).timeline past = c.timeline past ∨
      (c.askHalt loop halt).timeline past = .occurrence (.ready loop) :: c.timeline past := by
  rw [timeline, timeline]
  rcases askHalt_history c loop halt with hsame | hwoken
  · exact .inl (by rw [hsame])
  · exact .inr (by rw [hwoken]; rfl)

/-! ## Resets -/

lemma afterReset_session (c : Controller) (t : TaskId) (role : Role)
    (result : Except Error Reply) : (c.afterReset t role result).session = c.session.clear :=
  conclude_session _ t role result

/-! ## Loading -/

/-- The controller that has taken the errors of a load and told the views about them. -/
def takeErrors (c : Controller) (files : List LoadedFile) : Controller :=
  let d := (c.withSession (·.applyFailed files)).publishOf ViewMessage.ofErrors
  ((Session.firstError? files).map fun p =>
    { p with file := c.session.diagnostics.key p.file }).elim d fun p => d.publish (.reveal p)

lemma afterLoad_failed (c : Controller) (t : TaskId) (goal : LoadGoal) (files : List LoadedFile) :
    c.afterLoad t goal (.ok (.failed files)) =
      ((c.takeErrors files).setState .idle).conclude t .request (.ok .done) := rfl

/-- What holds when the errors have been told, and is kept when the place of one is told, holds once
the errors have been taken. -/
lemma takeErrors_induction {P : Controller → Prop} {files : List LoadedFile}
    (h : P ((c.withSession (·.applyFailed files)).publishOf ViewMessage.ofErrors))
    (told : ∀ d p, P d → P (d.publish (.reveal p))) : P (c.takeErrors files) := by
  unfold takeErrors
  cases (Session.firstError? files).map fun p =>
      { p with file := c.session.diagnostics.key p.file } with
  | none => exact h
  | some p => exact told _ p h

lemma session_takeErrors (c : Controller) (files : List LoadedFile) :
    (c.takeErrors files).session = c.session.applyFailed files :=
  takeErrors_induction (P := fun d => d.session = c.session.applyFailed files) rfl
    (fun _ _ h => h)

/-! ## Refreshing the views -/

/-- The controller that has sent reads of a task. -/
def sendReads (c : Controller) (t : TaskId) (pending : List PendingRead) : Controller :=
  pending.foldl (fun c p => c.note (.sent t p.slot (readRequest p.target.range))) c

lemma refresh_eq (c : Controller) (t : TaskId) (role : Role) (next : AfterRefresh) :
    c.refresh t role next = (c.sendReads t (pendingReads (refreshTargets c.session))).suspend t role
      (.refresh (pendingReads (refreshTargets c.session)) next) := rfl

/-- What holds before reads are sent and is kept when one is sent holds after all of them. -/
lemma sendReads_induction {P : Controller → Prop} {pending : List PendingRead} (h : P c)
    (sent : ∀ (d : Controller) slot range, P d → P (d.note (.sent t slot (readRequest range)))) :
    P (c.sendReads t pending) := by
  induction pending generalizing c with
  | nil => exact h
  | cons p rest ih => exact ih (sent c p.slot p.target.range h)

/-- Reads are sent, and nothing else comes of it. -/
lemma sendReads_eq (c : Controller) (t : TaskId) (pending : List PendingRead) :
    c.sendReads t pending = { c with history := (c.sendReads t pending).history } :=
  sendReads_induction (P := fun d => d = { c with history := d.history }) rfl
    fun d slot range hd => by rw [hd]; rfl

lemma refresh_session (c : Controller) (t : TaskId) (role : Role) (next : AfterRefresh) :
    (c.refresh t role next).session = c.session := by
  rw [refresh_eq, sendReads_eq]
  rfl

lemma slots_pendingReads (targets : List ReadTarget) :
    (pendingReads targets).map (·.slot) = List.range targets.length := by
  rw [pendingReads, List.map_map, List.range_eq_range', ← List.zipIdx_map_snd]
  rfl

/-- An answer to a read that is pending finds it. -/
lemma find?_slot_eq_some {pending : List PendingRead} {slot : Nat}
    (h : slot ∈ pending.map (·.slot)) : ∃ p, pending.find? (·.slot == slot) = some p := by
  obtain ⟨p, hp, rfl⟩ := List.mem_map.mp h
  exact Option.isSome_iff_exists.mp (List.find?_isSome.mpr ⟨p, hp, beq_self_eq_true _⟩)

/-- The answer to a read changes the bytes of the memory window or of the variables. -/
lemma storeRead_eq (s : Session) (target : ReadTarget) (result : Except Error (List UInt8)) :
    storeRead s target result = { s with
      watches := (storeRead s target result).watches
      memory := (storeRead s target result).memory } := by
  cases result with
  | error err => rfl
  | ok bytes =>
    cases target with
    | watch read => rfl
    | window range =>
      dsimp only [storeRead, Session.storeMemory]
      split <;> rfl

/-! ## Stepping -/

/-- What becomes active is told where another listing does. -/
lemma activeFile?_focus (x : ListingIndex) (pc : UInt32) :
    (x.focus pc).1.activeFile? = (x.focus pc).2.or x.activeFile? := by
  unfold ListingIndex.focus
  split
  · rfl
  · split
    · next i hi =>
      obtain ⟨hlt, _⟩ := List.findIdx?_eq_some_iff_getElem.mp hi
      rw [List.getElem?_eq_getElem hlt]
      exact ListingIndex.activeFile?_of_active rfl (List.getElem?_eq_getElem hlt)
    · rfl

lemma applyStep_eq (s : Session) (next : RegisterSnapshot) :
    (s.applyStep next).1 = { s with
      registers := (s.applyStep next).1.registers
      listings := { s.listings with active := (s.applyStep next).1.listings.active } } ∧
    (s.applyStep next).1.listings.activeFile? =
      (s.applyStep next).2.focused.or s.listings.activeFile? := by
  unfold Session.applyStep
  dsimp only
  split
  · exact ⟨rfl, rfl⟩
  · refine ⟨?_, activeFile?_focus s.listings next.pc⟩
    rw [← ListingIndex.focus_listings]

/-- The controller that has taken the registers after a step and told the views about them. -/
def takeStep (c : Controller) (next : RegisterSnapshot) : Controller :=
  let d := (c.withSession fun s => (s.applyStep next).1).publishOf ViewMessage.ofRegisters
  (c.session.applyStep next).2.focused.elim d fun file => d.publish (.activeListing file)

lemma afterStep_ok (c : Controller) (t : TaskId) (role : Role) (next : RegisterSnapshot) :
    c.afterStep t role (.ok next) =
      match (c.session.applyStep next).2.verdict with
      | .finished => (c.takeStep next).reset t role (.ok .done)
      | verdict => (c.takeStep next).refresh t role (.step verdict) := rfl

/-- What holds when the registers have been told, and is kept when a file that became active is
told, holds once a step has been taken. -/
lemma takeStep_induction {P : Controller → Prop} {next : RegisterSnapshot}
    (h : P ((c.withSession fun s => (s.applyStep next).1).publishOf ViewMessage.ofRegisters))
    (told : ∀ d file, P d → P (d.publish (.activeListing file))) : P (c.takeStep next) := by
  unfold takeStep
  cases (c.session.applyStep next).2.focused with
  | none => exact h
  | some file => exact told _ file h

/-- A step changes the session and is told, and nothing else comes of it. -/
lemma takeStep_eq (c : Controller) (next : RegisterSnapshot) :
    c.takeStep next = { c with
      session := (c.session.applyStep next).1
      history := (c.takeStep next).history } :=
  takeStep_induction (P := fun d => d = { c with
    session := (c.session.applyStep next).1
    history := d.history }) rfl fun d file hd => by rw [hd]; rfl

lemma afterStep_session (c : Controller) (t : TaskId) (role : Role) (next : RegisterSnapshot) :
    (c.afterStep t role (.ok next)).session = (c.session.applyStep next).1 := by
  rw [afterStep_ok]
  split
  · rw [takeStep_eq]
    rfl
  · rw [refresh_session, takeStep_eq]

end Controller
end SicDebugger
