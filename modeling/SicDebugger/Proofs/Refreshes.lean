import SicDebugger.Proofs.Freshness
import SicDebugger.Proofs.Halt
import Mathlib.Data.List.Induction
import Mathlib.Data.List.Nodup

/-!
# Refreshing the variables

A refresh reads the bytes of every variable at once, and the answers come in any order, with other
tasks at work between them. One value is kept for each address. So a variable shows the bytes of a
variable that is declared at its address, and which one depends on the order of the answers, unless
all that are declared there have the same number of bytes: then each shows its own, and the order
plays no part.
-/

namespace SicDebugger

/-! ## The bytes of a range -/

namespace AddressRange

variable {r r' : AddressRange} {first : UInt32} {length : Nat}

/-- The bytes that a memory holds in a range. -/
def contents (memory : UInt32 → UInt8) (r : AddressRange) : List UInt8 :=
  (List.range r.size).map fun i => memory (r.first + UInt32.ofNat i)

lemma length_contents (memory : UInt32 → UInt8) (r : AddressRange) :
    (r.contents memory).length = r.size := by
  rw [contents, List.length_map, List.length_range]

lemma first_ofLength? (h : ofLength? first length = some r) : r.first = first := by
  unfold ofLength? at h
  split at h
  · cases h
    rfl
  · cases h

/-- A range is determined by where it starts and by its size. -/
lemma eq_of_size (hfirst : r.first = r'.first) (hsize : r.size = r'.size) : r = r' := by
  obtain ⟨first, last, hle⟩ := r
  obtain ⟨first', last', hle'⟩ := r'
  obtain rfl : first = first' := hfirst
  have hlast : last = last' := by
    rw [UInt32.le_iff_toNat_le] at hle hle'
    apply UInt32.toNat.inj
    simp only [size] at hsize
    omega
  subst hlast
  rfl

end AddressRange

/-! ## Reads and the variables that they refresh -/

/-- The range that a read brings for the variables at an address, if it is one for them. -/
def ReadTarget.rangeAt? (address : UInt32) : ReadTarget → Option AddressRange
  | .watch r => if r.address = address then some r.range else none
  | .window _ => none

/-- The range that is read last for the variables at an address. -/
def lastRange? (address : UInt32) (order : List PendingRead) : Option AddressRange :=
  order.reverse.findSome? (·.target.rangeAt? address)

section

variable {address : UInt32} {order : List PendingRead} {range : AddressRange} {p : PendingRead}

lemma ReadTarget.rangeAt?_eq_some {target : ReadTarget} :
    target.rangeAt? address = some range ↔ target = .watch ⟨address, range⟩ := by
  cases target with
  | window r => simp [rangeAt?]
  | watch r =>
    obtain ⟨a, range'⟩ := r
    simp [rangeAt?]

lemma lastRange?_concat (address : UInt32) (order : List PendingRead) (p : PendingRead) :
    lastRange? address (order ++ [p]) =
      (p.target.rangeAt? address).or (lastRange? address order) := by
  rw [lastRange?, List.reverse_append, List.reverse_singleton, List.singleton_append,
    List.findSome?_cons]
  cases p.target.rangeAt? address <;> rfl

lemma mem_of_lastRange? (h : lastRange? address order = some range) :
    ∃ p ∈ order, p.target = .watch ⟨address, range⟩ := by
  obtain ⟨p, hp, htarget⟩ := List.exists_of_findSome?_eq_some h
  exact ⟨p, List.mem_reverse.mp hp, ReadTarget.rangeAt?_eq_some.mp htarget⟩

lemma isSome_lastRange? (hp : p ∈ order) (htarget : p.target = .watch ⟨address, range⟩) :
    ∃ range', lastRange? address order = some range' := by
  apply Option.isSome_iff_exists.mp
  rw [lastRange?, List.findSome?_isSome_iff]
  refine ⟨p, List.mem_reverse.mpr hp, ?_⟩
  rw [ReadTarget.rangeAt?_eq_some.mpr htarget]
  rfl

end

/-! ## The values after reads -/

namespace WatchRegistry

variable {memory : UInt32 → UInt8} {w w' : WatchRegistry} {order : List PendingRead}
  {address : UInt32}

/-- Variables that are declared at one address have the same number of bytes. -/
def Uniform (w : WatchRegistry) : Prop :=
  ∀ e ∈ w.entries, ∀ e' ∈ w.entries, e.declared.address = e'.declared.address →
    ∀ range range', e.declared.range? = some range → e'.declared.range? = some range' →
      range.size = range'.size

/-- Each variable shows the bytes of its own range. -/
def ShowsOwn (memory : UInt32 → UInt8) (w : WatchRegistry) : Prop :=
  ∀ e ∈ w.entries, ∀ range, e.declared.range? = some range →
    e.view (some (range.contents memory)) ∈ w.views

/-- Takes the answer to a read, which is what the memory holds. -/
def takeRead (memory : UInt32 → UInt8) (w : WatchRegistry) (p : PendingRead) : WatchRegistry :=
  match p.target with
  | .watch r => w.store r.address (r.range.contents memory)
  | .window _ => w

lemma view_mem_views {e : WatchEntry} {value : Option (List UInt8)} (he : e ∈ w.entries) :
    e.view value ∈ w.views ↔ w.valueAt? e.declared.address = value := by
  rw [views_eq, List.mem_map]
  refine ⟨?_, ?_⟩
  · rintro ⟨e', -, hview⟩
    have haddress : e'.declared.address = e.declared.address := congrArg WatchView.address hview
    rw [← haddress]
    exact congrArg WatchView.value hview
  · rintro rfl
    exact ⟨e, he, rfl⟩

lemma entries_takeRead (memory : UInt32 → UInt8) (w : WatchRegistry) (p : PendingRead) :
    (w.takeRead memory p).entries = w.entries := by
  unfold takeRead
  split
  · exact entries_store w _ _
  · rfl

lemma entries_foldl (memory : UInt32 → UInt8) (w : WatchRegistry) (order : List PendingRead) :
    (order.foldl (takeRead memory) w).entries = w.entries := by
  induction order generalizing w with
  | nil => rfl
  | cons p order ih => rw [List.foldl_cons, ih, entries_takeRead]

lemma valueAt?_takeRead {p : PendingRead}
    (hp : ∀ r, p.target = .watch r → ∃ e ∈ w.entries, e.declared.address = r.address) :
    (w.takeRead memory p).valueAt? address =
      ((p.target.rangeAt? address).map (·.contents memory)).or (w.valueAt? address) := by
  unfold takeRead
  split
  · next r htarget =>
    obtain ⟨e, he, haddress⟩ := hp r htarget
    have hdeclared : w.declares r.address = true := declares_iff.mpr ⟨e, he, haddress⟩
    rw [valueAt?_store, htarget, ReadTarget.rangeAt?]
    by_cases heq : r.address = address
    · rw [if_pos ⟨heq, heq ▸ hdeclared⟩, if_pos heq]
      rfl
    · rw [if_neg fun h => heq h.1, if_neg heq]
      rfl
  · next range htarget =>
    rw [htarget]
    rfl

/-- Of the reads for one address the last one counts. -/
lemma valueAt?_foldl
    (hall : ∀ p ∈ order, ∀ r, p.target = .watch r →
      ∃ e ∈ w.entries, e.declared.address = r.address) :
    (order.foldl (takeRead memory) w).valueAt? address =
      ((lastRange? address order).map (·.contents memory)).or (w.valueAt? address) := by
  -- it is the end of the list that decides, so it is taken apart there
  induction order using List.reverseRecOn with
  | nil => rfl
  | append_singleton order p ih =>
    rw [List.foldl_append, List.foldl_cons, List.foldl_nil, valueAt?_takeRead, ih,
      lastRange?_concat]
    · cases p.target.rangeAt? address <;> rfl
    · intro q hq
      exact hall q (List.mem_append_left _ hq)
    · intro r hr
      rw [entries_foldl]
      exact hall p (List.mem_append_right _ (List.mem_singleton_self p)) r hr

end WatchRegistry

/-! ## Answers to a refresh -/

namespace Controller

/-- The reads of a refresh of a task are answered in an order, each with what the memory holds, from
one controller to another. Other events can come between the answers. -/
inductive Refreshes (memory : UInt32 → UInt8) (t : TaskId) :
    Controller → List PendingRead → Controller → Prop where
  | last {c d : Controller} {p : PendingRead} {news : List Occurrence} :
      c.happen? (.read t p.slot (.ok (p.target.range.contents memory))) = some (d, news) →
      Refreshes memory t c [p] d
  | answered {c d f : Controller} {p : PendingRead} {rest : List PendingRead}
      {news : List Occurrence} :
      c.happen? (.read t p.slot (.ok (p.target.range.contents memory))) = some (d, news) →
      Refreshes memory t d rest f → Refreshes memory t c (p :: rest) f
  | meanwhile {c d f : Controller} {e : Event} {order : List PendingRead}
      {news : List Occurrence} :
      c.happen? e = some (d, news) → (∀ slot result, e ≠ .read t slot result) →
      Refreshes memory t d order f → Refreshes memory t c order f

variable {settings : ControllerSettings} {log : List LogEntry} {c d d' : Controller} {t : TaskId}
  {role : Role} {e : Event} {p : PendingRead} {pending order order' : List PendingRead}
  {next : AfterRefresh} {news : List Occurrence} {memory : UInt32 → UInt8} {s : Session}

/-- A task waits for reads of a refresh. -/
def Awaits (c : Controller) (t : TaskId) (pending : List PendingRead) : Prop :=
  ∃ role next, c.tasks[t]? = some ⟨role, .refresh pending next⟩

lemma reads_of_awaits (h : c.Awaits t pending) : c.reads t = pending := by
  obtain ⟨role, next, ht⟩ := h
  rw [reads, ht]
  rfl

lemma mem_pendingReads {targets : List ReadTarget} {target : ReadTarget} (h : target ∈ targets) :
    ∃ p ∈ pendingReads targets, p.target = target := by
  obtain ⟨i, hi, rfl⟩ := List.mem_iff_getElem.mp h
  refine ⟨⟨i, targets[i]⟩, ?_, rfl⟩
  rw [pendingReads, List.mem_map]
  exact ⟨(targets[i], i), List.mk_mem_zipIdx_iff_getElem?.mpr (List.getElem?_eq_getElem hi), rfl⟩

/-- The reads of a refresh are those of the variables that have bytes, and one of the window. -/
lemma mem_order_watch {r : WatchRead} (ho : order.Perm (pendingReads (refreshTargets s))) :
    (∃ p ∈ order, p.target = .watch r) ↔ ∃ e ∈ s.watches.entries,
      e.declared.address = r.address ∧ e.declared.range? = some r.range := by
  rw [← WatchRegistry.mem_reads]
  refine ⟨?_, ?_⟩
  · rintro ⟨p, hp, htarget⟩
    have hmem := target_mem_pendingReads (ho.mem_iff.mp hp)
    exact watch_mem_refreshTargets (htarget ▸ hmem)
  · intro hr
    have hmem : ReadTarget.watch r ∈ refreshTargets s :=
      List.mem_cons_of_mem _ (List.mem_map_of_mem hr)
    obtain ⟨p, hp, htarget⟩ := mem_pendingReads hmem
    exact ⟨p, ho.mem_iff.mpr hp, htarget⟩

/-- Once a read is answered the others are left. -/
lemma perm_filter_slot (hslots : (pending.map (·.slot)).Nodup) (ho : (p :: order).Perm pending) :
    order.Perm (pending.filter (·.slot != p.slot)) := by
  have hnodup : ((p :: order).map (·.slot)).Nodup := (ho.map _).nodup_iff.mpr hslots
  rw [List.map_cons, List.nodup_cons] at hnodup
  have hrest : (p :: order).filter (·.slot != p.slot) = order := by
    rw [List.filter_cons, if_neg (by simp), List.filter_eq_self]
    intro q hq
    rw [bne_iff_ne]
    intro hslot
    exact hnodup.1 (hslot ▸ List.mem_map_of_mem hq)
  rw [← hrest]
  exact ho.filter _

lemma nodup_filter_slot (hslots : (pending.map (·.slot)).Nodup) (slot : Nat) :
    ((pending.filter (·.slot != slot)).map (·.slot)).Nodup :=
  hslots.sublist (List.filter_sublist.map _)

lemma find?_slot (hslots : (pending.map (·.slot)).Nodup) (hp : p ∈ pending) :
    pending.find? (·.slot == p.slot) = some p := by
  obtain ⟨q, hq⟩ := find?_slot_eq_some (List.mem_map_of_mem (f := (·.slot)) hp)
  have hslot : q.slot = p.slot := by simpa using List.find?_some hq
  rw [hq, List.inj_on_of_nodup_map hslots (List.mem_of_find?_eq_some hq) hp hslot]

/-! ## One event of a refresh -/

lemma watches_storeRead (s : Session) (p : PendingRead) :
    (storeRead s p.target (.ok (p.target.range.contents memory))).watches =
      s.watches.takeRead memory p := by
  rw [WatchRegistry.takeRead]
  cases hp : p.target with
  | watch r => rfl
  | window range =>
    dsimp only [storeRead, Session.storeMemory]
    split <;> rfl

/-- An answer is taken, and the task waits for the other reads if there are any. -/
lemma Awaits.read (h : c.Awaits t pending) (hslots : (pending.map (·.slot)).Nodup)
    (hp : p ∈ pending) (memory : UInt32 → UInt8) : ∃ d news,
      c.happen? (.read t p.slot (.ok (p.target.range.contents memory))) = some (d, news) ∧
      d.session.watches = c.session.watches.takeRead memory p ∧
      (pending.filter (·.slot != p.slot) ≠ [] →
        d.Awaits t (pending.filter (·.slot != p.slot))) := by
  obtain ⟨role, next, ht⟩ := h
  have hany : pending.any (·.slot == p.slot) = true :=
    List.any_eq_true.mpr ⟨p, hp, beq_self_eq_true _⟩
  have hd : { c with history := [] }.perform?
      (.read t p.slot (.ok (p.target.range.contents memory))) =
        some ({ c with history := [] }.afterRead t role pending next p.slot
          (.ok (p.target.range.contents memory))) := by
    simp only [perform?, ht]
    rw [if_pos hany]
  refine ⟨_, _, happen?_of_perform hd, ?_, ?_⟩
  · obtain ⟨q, hq, hslot, hsession⟩ := stored_of_read hd
    have hreads : q ∈ pending := by
      have hall : reads { c with history := [] } t = pending := reads_of_awaits ⟨role, next, ht⟩
      exact hall ▸ hq
    obtain rfl := List.inj_on_of_nodup_map hslots hreads hp hslot
    show (afterRead _ t role pending next q.slot _).session.watches = _
    rw [hsession]
    exact watches_storeRead c.session q
  · intro hrest
    refine ⟨role, next, ?_⟩
    show (afterRead _ t role pending next p.slot _).tasks[t]? = _
    rw [afterRead, find?_slot hslots hp]
    dsimp only
    rw [if_neg (by rwa [List.isEmpty_iff])]
    exact suspend_tasks_self ..

/-- While a task waits for reads, nothing but their answers changes the variables, and the task goes
on waiting. -/
lemma Awaits.meanwhile (hrun : Run (.ofSettings settings) log c) (h : c.Awaits t pending)
    (hp : p ∈ pending) (hd : c.happen? e = some (d, news))
    (he : ∀ slot result, e ≠ .read t slot result) :
    d.session.watches = c.session.watches ∧ d.Awaits t pending := by
  obtain ⟨role, next, ht⟩ := h
  have hsound : Sound c := sound_of_run hrun
  have hguard : c.guard = some t := (disciplined_of_run hrun).inSection t _ ht rfl
  obtain ⟨d', hd', rfl, -⟩ := happen?_eq_some hd
  have hworker : e.worker c ≠ t := by
    rintro rfl
    obtain ⟨u, slot, result, rfl⟩ : ∃ u slot result, e = .read u slot result := by
      apply Wait.accepts_of_mem_reads (w := .refresh pending next) hp
      exact accepts_of_perform (hsound.forget []) hd' ht
    exact he slot result rfl
  refine ⟨?_, ?_⟩
  · have hpasses : (LogEntry.event c e).Passes t p.slot := by
      apply (disciplined_of_run hrun).forget [] |>.passes (hsound.forget []) rfl hd'
        (mem_reads.mpr ⟨role, _, ht, hp⟩) (fun result => he p.slot result)
      exact List.mem_append_right _ (List.mem_singleton_self _)
    have hstores : Stores c e d'.session := (stores_of_perform hd').recall
    show d'.session.watches = c.session.watches
    generalize d'.session = after at hstores
    cases hstores with
    | kept _ hwatches => exact hwatches
    | dropped hstart => exact absurd hstart hpasses.not_startsOver
    | @stored u q result hq =>
      -- the answer would be one for another task that has the guard
      obtain ⟨role', w, hu, hw⟩ := mem_reads.mp hq
      have hheld : c.guard = some u :=
        (disciplined_of_run hrun).inSection u _ hu (Wait.isInSection_of_mem_reads hw)
      obtain rfl := Option.some.inj (hheld.symm.trans hguard)
      exact absurd rfl (he q.slot result)
  · obtain ⟨role', ht'⟩ := (hsound.forget []).stays hd' ht hworker
    exact ⟨role', next, ht'⟩

/-! ## A refresh -/

lemma Refreshes.ne_nil (h : Refreshes memory t c order d) : order ≠ [] := by
  induction h with
  | last => exact List.cons_ne_nil _ _
  | answered => exact List.cons_ne_nil _ _
  | meanwhile _ _ _ ih => exact ih

/-- The answers of a refresh are taken in their order, whatever else happens. -/
lemma Refreshes.watches_eq (h : Refreshes memory t c order d)
    (hrun : Run (.ofSettings settings) log c) (hawaits : c.Awaits t pending)
    (hslots : (pending.map (·.slot)).Nodup) (ho : order.Perm pending) :
    d.session.watches = order.foldl (WatchRegistry.takeRead memory) c.session.watches := by
  induction h generalizing log pending with
  | @last c d p news hd =>
    obtain ⟨d', news', hd', hwatches, -⟩ :=
      hawaits.read hslots (ho.mem_iff.mp (List.mem_singleton_self p)) memory
    cases hd.symm.trans hd'
    exact hwatches
  | @answered c d f p rest news hd hrest ih =>
    obtain ⟨d', news', hd', hwatches, hleft⟩ :=
      hawaits.read hslots (ho.mem_iff.mp List.mem_cons_self) memory
    cases hd.symm.trans hd'
    -- the task goes on waiting for the reads behind this one, so there is one left
    have hperm := perm_filter_slot hslots ho
    have hne : pending.filter (·.slot != p.slot) ≠ [] := by
      intro hnil
      rw [hnil] at hperm
      exact hrest.ne_nil hperm.eq_nil
    rw [ih (.next hrun hd) (hleft hne) (nodup_filter_slot hslots _) hperm, hwatches,
      List.foldl_cons]
  | @meanwhile c d f e order news hd he hrest ih =>
    obtain ⟨p, hp⟩ := List.exists_mem_of_ne_nil _ hrest.ne_nil
    obtain ⟨hwatches, hleft⟩ := hawaits.meanwhile hrun (ho.mem_iff.mp hp) hd he
    rw [ih (.next hrun hd) hleft hslots ho, hwatches]

/-- The answers to a refresh can come in any order. -/
lemma Awaits.exists_refreshes (hawaits : c.Awaits t pending)
    (hslots : (pending.map (·.slot)).Nodup) (ho : order.Perm pending) (hne : order ≠ []) :
    ∃ d, Refreshes memory t c order d := by
  induction order generalizing c pending with
  | nil => exact absurd rfl hne
  | cons p rest ih =>
    obtain ⟨d, news, hd, -, hleft⟩ :=
      hawaits.read hslots (ho.mem_iff.mp List.mem_cons_self) memory
    have hperm := perm_filter_slot hslots ho
    cases rest with
    | nil => exact ⟨d, .last hd⟩
    | cons q rest =>
      have hnext : pending.filter (·.slot != p.slot) ≠ [] := by
        intro hnil
        rw [hnil] at hperm
        exact List.cons_ne_nil _ _ hperm.eq_nil
      obtain ⟨f, hf⟩ := ih (hleft hnext) (nodup_filter_slot hslots _) hperm (List.cons_ne_nil _ _)
      exact ⟨f, .answered hd hf⟩

/-- A task has sent the reads of a refresh and none has been answered. -/
def BeginsRefresh (c : Controller) (t : TaskId) : Prop :=
  c.Awaits t (pendingReads (refreshTargets c.session))

/-- The reads of a refresh can be answered in an order. -/
def IsOrder (c : Controller) (order : List PendingRead) : Prop :=
  order.Perm (pendingReads (refreshTargets c.session))

lemma nodup_slots (targets : List ReadTarget) :
    ((pendingReads targets).map (·.slot)).Nodup := by
  rw [slots_pendingReads]
  exact List.nodup_range

lemma BeginsRefresh.exists_refreshes (h : c.BeginsRefresh t) (ho : c.IsOrder order)
    (memory : UInt32 → UInt8) : ∃ d, Refreshes memory t c order d := by
  apply Awaits.exists_refreshes h (nodup_slots _) ho
  intro hnil
  rw [IsOrder, hnil] at ho
  exact List.cons_ne_nil _ _ ho.symm.eq_nil

section

variable (hrun : Run (.ofSettings settings) log c) (hbegins : c.BeginsRefresh t)
  (ho : c.IsOrder order) (h : Refreshes memory t c order d)
include hrun hbegins ho h

lemma entries_of_refreshes : d.session.watches.entries = c.session.watches.entries := by
  rw [h.watches_eq hrun hbegins (nodup_slots _) ho, WatchRegistry.entries_foldl]

/-- The value at an address is the answer to the last read for it. -/
lemma valueAt?_of_refreshes (address : UInt32) :
    d.session.watches.valueAt? address = ((lastRange? address order).map (·.contents memory)).or
      (c.session.watches.valueAt? address) := by
  rw [h.watches_eq hrun hbegins (nodup_slots _) ho]
  apply WatchRegistry.valueAt?_foldl
  intro p hp r hr
  obtain ⟨e, he, haddress, -⟩ := (mem_order_watch ho).mp ⟨p, hp, hr⟩
  exact ⟨e, he, haddress⟩

/-- A variable that has bytes shows those of a variable that is declared at its address. -/
lemma view_of_refreshes {v : WatchEntry} (hv : v ∈ c.session.watches.entries)
    {range : AddressRange} (hrange : v.declared.range? = some range) :
    ∃ v' ∈ c.session.watches.entries, v'.declared.address = v.declared.address ∧
      ∃ range', v'.declared.range? = some range' ∧
        lastRange? v.declared.address order = some range' ∧
        v.view (some (range'.contents memory)) ∈ d.session.watches.views := by
  obtain ⟨p, hp, htarget⟩ := (mem_order_watch (r := ⟨v.declared.address, range⟩) ho).mpr
    ⟨v, hv, rfl, hrange⟩
  obtain ⟨range', hlast⟩ := isSome_lastRange? hp htarget
  obtain ⟨q, hq, hqtarget⟩ := mem_of_lastRange? hlast
  obtain ⟨v', hv', haddress, hrange'⟩ := (mem_order_watch ho).mp ⟨q, hq, hqtarget⟩
  refine ⟨v', hv', haddress, range', hrange', hlast, ?_⟩
  rw [WatchRegistry.view_mem_views (entries_of_refreshes hrun hbegins ho h ▸ hv),
    valueAt?_of_refreshes hrun hbegins ho h, hlast]
  rfl

end

/-- The read of a variable that has bytes can be the last one to be answered. -/
lemma exists_order_last {v : WatchEntry} {range : AddressRange}
    (hv : v ∈ c.session.watches.entries) (hrange : v.declared.range? = some range) :
    ∃ order, c.IsOrder order ∧ lastRange? v.declared.address order = some range := by
  obtain ⟨p, hp, htarget⟩ := (mem_order_watch (s := c.session) (r := ⟨v.declared.address, range⟩)
    (.refl _)).mpr ⟨v, hv, rfl, hrange⟩
  obtain ⟨first, second, hsplit⟩ := List.append_of_mem hp
  refine ⟨first ++ second ++ [p], ?_, ?_⟩
  · rw [IsOrder, hsplit]
    exact (List.perm_append_singleton p _).trans List.perm_middle.symm
  · rw [lastRange?_concat, htarget, ReadTarget.rangeAt?_eq_some.mpr rfl]
    rfl

end Controller

/-- Where the variables at one address have the same number of bytes they have the same range. -/
lemma WatchRegistry.Uniform.range_eq {w : WatchRegistry} (hw : w.Uniform) {v v' : WatchEntry}
    (hv : v ∈ w.entries) (hv' : v' ∈ w.entries)
    (haddress : v.declared.address = v'.declared.address) {range range' : AddressRange}
    (hrange : v.declared.range? = some range) (hrange' : v'.declared.range? = some range') :
    range = range' := by
  apply AddressRange.eq_of_size
  · rw [AddressRange.first_ofLength? hrange, AddressRange.first_ofLength? hrange', haddress]
  · exact hw v hv v' hv' haddress range range' hrange hrange'

namespace Controller

variable {settings : ControllerSettings} {log : List LogEntry} {c d d' : Controller} {t : TaskId}
  {order order' : List PendingRead} {memory : UInt32 → UInt8}

/-- Where the variables at one address have the same number of bytes, the last read for it brings
the same range in each order. -/
lemma lastRange?_eq_of_uniform (hw : c.session.watches.Uniform) (ho : c.IsOrder order)
    (ho' : c.IsOrder order') (address : UInt32) :
    lastRange? address order = lastRange? address order' := by
  cases hlast : lastRange? address order with
  | none =>
    -- a read in one order is one in the other
    cases hlast' : lastRange? address order' with
    | none => rfl
    | some range =>
      obtain ⟨p, hp, htarget⟩ := mem_of_lastRange? hlast'
      have hmem : p ∈ order := ho.mem_iff.mpr (ho'.mem_iff.mp hp)
      obtain ⟨range', hsome⟩ := isSome_lastRange? hmem htarget
      cases hlast.symm.trans hsome
  | some range =>
    obtain ⟨p, hp, htarget⟩ := mem_of_lastRange? hlast
    obtain ⟨v, hv, haddress, hrange⟩ := (mem_order_watch ho).mp ⟨p, hp, htarget⟩
    have hmem : p ∈ order' := ho'.mem_iff.mpr (ho.mem_iff.mp hp)
    obtain ⟨range', hlast'⟩ := isSome_lastRange? hmem htarget
    obtain ⟨p', hp', htarget'⟩ := mem_of_lastRange? hlast'
    obtain ⟨v', hv', haddress', hrange'⟩ := (mem_order_watch ho').mp ⟨p', hp', htarget'⟩
    obtain rfl : range = range' :=
      hw.range_eq hv hv' (haddress.trans haddress'.symm) hrange hrange'
    exact hlast'.symm

section

variable (hrun : Run (.ofSettings settings) log c) (hbegins : c.BeginsRefresh t)
include hrun hbegins

/-- Where the variables at one address have the same number of bytes, each shows its own. -/
lemma showsOwn_of_uniform (hw : c.session.watches.Uniform) (ho : c.IsOrder order)
    (h : Refreshes memory t c order d) : d.session.watches.ShowsOwn memory := by
  intro v hv range hrange
  rw [entries_of_refreshes hrun hbegins ho h] at hv
  obtain ⟨v', hv', haddress, range', hrange', -, hview⟩ :=
    view_of_refreshes hrun hbegins ho h hv hrange
  rwa [hw.range_eq hv hv' haddress.symm hrange hrange']

/-- Where the variables at one address have the same number of bytes, the order plays no part. -/
lemma views_eq_of_uniform (hw : c.session.watches.Uniform) (ho : c.IsOrder order)
    (ho' : c.IsOrder order') (h : Refreshes memory t c order d)
    (h' : Refreshes memory t c order' d') :
    d.session.watches.views = d'.session.watches.views := by
  rw [WatchRegistry.views_eq, WatchRegistry.views_eq, entries_of_refreshes hrun hbegins ho h,
    entries_of_refreshes hrun hbegins ho' h']
  apply List.map_congr_left
  intro v hv
  rw [valueAt?_of_refreshes hrun hbegins ho h, valueAt?_of_refreshes hrun hbegins ho' h',
    lastRange?_eq_of_uniform hw ho ho']

/-- Where each variable shows its own bytes whatever the order, those at one address have the same
number of them. -/
lemma uniform_of_showsOwn (hown : ∀ order d, c.IsOrder order → Refreshes memory t c order d →
    d.session.watches.ShowsOwn memory) : c.session.watches.Uniform := by
  intro v hv v' hv' haddress range range' hrange hrange'
  -- the first variable shows its own bytes also when the read of the other one is the last
  obtain ⟨order, ho, hlast⟩ := exists_order_last hv' hrange'
  obtain ⟨d, h⟩ := hbegins.exists_refreshes ho memory
  have hmem : v ∈ d.session.watches.entries := by
    rwa [entries_of_refreshes hrun hbegins ho h]
  have hvalue := (WatchRegistry.view_mem_views hmem).mp (hown order d ho h v hmem range hrange)
  rw [valueAt?_of_refreshes hrun hbegins ho h, haddress, hlast] at hvalue
  have hbytes : range'.contents memory = range.contents memory := Option.some.inj hvalue
  rw [← AddressRange.length_contents memory range, ← hbytes, AddressRange.length_contents]

end

/-- The answers to a refresh can come in any order, and after the last one each variable that has
bytes shows those of a variable that is declared at its address. The variables that are declared at
one address have the same number of bytes exactly when each shows its own whatever the order, and
then the order plays no part in what is shown. -/
theorem refresh_is_independent_of_order {settings : ControllerSettings} {log : List LogEntry}
    {c : Controller} (hrun : Run (.ofSettings settings) log c) {t : TaskId}
    (hbegins : c.BeginsRefresh t) (memory : UInt32 → UInt8) :
    (∀ order, c.IsOrder order → ∃ d, Refreshes memory t c order d) ∧
    (∀ order d, c.IsOrder order → Refreshes memory t c order d →
      d.session.watches.entries = c.session.watches.entries ∧
      ∀ v ∈ c.session.watches.entries, v.declared.range? ≠ none →
        ∃ v' ∈ c.session.watches.entries, v'.declared.address = v.declared.address ∧
          ∃ range', v'.declared.range? = some range' ∧
            v.view (some (range'.contents memory)) ∈ d.session.watches.views) ∧
    (c.session.watches.Uniform → ∀ order d order' d', c.IsOrder order → c.IsOrder order' →
      Refreshes memory t c order d → Refreshes memory t c order' d' →
        d.session.watches.views = d'.session.watches.views) ∧
    (c.session.watches.Uniform ↔ ∀ order d, c.IsOrder order → Refreshes memory t c order d →
      d.session.watches.ShowsOwn memory) := by
  refine ⟨?_, ?_, ?_, ?_⟩
  · intro order ho
    exact hbegins.exists_refreshes ho memory
  · intro order d ho h
    refine ⟨entries_of_refreshes hrun hbegins ho h, ?_⟩
    intro v hv hbytes
    obtain ⟨range, hrange⟩ := Option.ne_none_iff_exists'.mp hbytes
    obtain ⟨v', hv', haddress, range', hrange', -, hview⟩ :=
      view_of_refreshes hrun hbegins ho h hv hrange
    exact ⟨v', hv', haddress, range', hrange', hview⟩
  · intro hw order d order' d' ho ho' h h'
    exact views_eq_of_uniform hrun hbegins hw ho ho' h h'
  · refine ⟨?_, uniform_of_showsOwn hrun hbegins⟩
    intro hw order d ho h
    exact showsOwn_of_uniform hrun hbegins hw ho h

/-- A variable of one byte. -/
def flag : WatchEntry := ⟨"main.asm", { name := "FLAG", address := 3, declaredSize := some 1 }⟩

/-- A variable of some size at the same address, in another file. -/
def mark (size : UInt32) : WatchEntry :=
  ⟨"sub.asm", { name := "MARK", address := 3, declaredSize := some size }⟩

/-- A load of two files that declare the two variables, and a third one behind the first. -/
def sharing (size : UInt32) : List Event :=
  [.request .step, .began 0 (.ok ()), .loaded 0 (.ok (.loaded {} [
    { name := "main.asm",
      watches := [flag.declared, { name := "COUNT", address := 4, declaredSize := some 3 }] },
    { name := "sub.asm", watches := [(mark size).declared] }]))]

/-- Two variables of one byte share an address. Both show it, whether the reads are answered in
their order or the other way round. -/
theorem refresh_shows_shared_byte : ∃ log c d d',
    replay (.ofSettings oneSource) (sharing 1) = some (log, c) ∧
    c.BeginsRefresh 0 ∧ c.session.watches.Uniform ∧
    Refreshes UInt32.toUInt8 0 c (pendingReads (refreshTargets c.session)) d ∧
    Refreshes UInt32.toUInt8 0 c (pendingReads (refreshTargets c.session)).reverse d' ∧
    d.session.watches.views = d'.session.watches.views ∧
    d.session.watches.ShowsOwn UInt32.toUInt8 := by
  obtain ⟨⟨log, c⟩, hlog⟩ := Option.isSome_iff_exists.mp
    (show (replay (.ofSettings oneSource) (sharing 1)).isSome = true by rfl)
  have hc : c = ((replay (.ofSettings oneSource) (sharing 1)).get (by rfl)).2 := by
    simp only [hlog, Option.get_some]
  have hbegins : c.BeginsRefresh 0 := by
    rw [hc]
    exact ⟨_, _, rfl⟩
  have hranges : ∀ e ∈ c.session.watches.entries, ∀ e' ∈ c.session.watches.entries,
      e.declared.address = e'.declared.address → e.declared.range? = e'.declared.range? := by
    rw [hc]
    decide +kernel
  have huniform : c.session.watches.Uniform := by
    intro e he e' he' haddress range range' hrange hrange'
    rw [← Option.some.inj (hrange.symm.trans ((hranges e he e' he' haddress).trans hrange'))]
  obtain ⟨hexists, -, hsame, hown⟩ :=
    refresh_is_independent_of_order (.of_replay hlog) hbegins UInt32.toUInt8
  have hreverse : c.IsOrder (pendingReads (refreshTargets c.session)).reverse :=
    List.reverse_perm _
  obtain ⟨d, hd⟩ := hexists _ (.refl _)
  obtain ⟨d', hd'⟩ := hexists _ hreverse
  exact ⟨log, c, d, d', hlog, hbegins, huniform, hd, hd',
    hsame huniform _ d _ d' (.refl _) hreverse hd hd', hown.mp huniform _ d (.refl _) hd⟩

/-- Variables of one byte and of two share an address. The first one shows the bytes of the other
when the reads are answered in their order, and the other those of the first when they are answered
the other way round. -/
theorem last_answer_decides_shared_address : ∃ log c d d',
    replay (.ofSettings oneSource) (sharing 2) = some (log, c) ∧
    c.BeginsRefresh 0 ∧
    Refreshes UInt32.toUInt8 0 c (pendingReads (refreshTargets c.session)) d ∧
    Refreshes UInt32.toUInt8 0 c (pendingReads (refreshTargets c.session)).reverse d' ∧
    d.session.watches.views ≠ d'.session.watches.views ∧
    ¬ d.session.watches.ShowsOwn UInt32.toUInt8 ∧
    ¬ d'.session.watches.ShowsOwn UInt32.toUInt8 := by
  obtain ⟨⟨log, c⟩, hlog⟩ := Option.isSome_iff_exists.mp
    (show (replay (.ofSettings oneSource) (sharing 2)).isSome = true by rfl)
  have hc : c = ((replay (.ofSettings oneSource) (sharing 2)).get (by rfl)).2 := by
    simp only [hlog, Option.get_some]
  have hrun := Run.of_replay hlog
  have hbegins : c.BeginsRefresh 0 := by
    rw [hc]
    exact ⟨_, _, rfl⟩
  have hflag : flag ∈ c.session.watches.entries := by
    rw [hc]
    decide +kernel
  have hmark : mark 2 ∈ c.session.watches.entries := by
    rw [hc]
    decide +kernel
  have hreverse : c.IsOrder (pendingReads (refreshTargets c.session)).reverse :=
    List.reverse_perm _
  obtain ⟨d, hd⟩ := hbegins.exists_refreshes (.refl _) UInt32.toUInt8
  obtain ⟨d', hd'⟩ := hbegins.exists_refreshes hreverse UInt32.toUInt8
  have hvalue : d.session.watches.valueAt? flag.declared.address = some [3, 4] := by
    rw [valueAt?_of_refreshes hrun hbegins (.refl _) hd, hc]
    rfl
  have hvalue' : d'.session.watches.valueAt? flag.declared.address = some [3] := by
    rw [valueAt?_of_refreshes hrun hbegins hreverse hd', hc]
    rfl
  rw [← entries_of_refreshes hrun hbegins (.refl _) hd] at hflag
  have hview : flag.view (some [3, 4]) ∈ d.session.watches.views :=
    (WatchRegistry.view_mem_views hflag).mpr hvalue
  refine ⟨log, c, d, d', hlog, hbegins, hd, hd', ?_, ?_, ?_⟩
  · intro hsame
    rw [hsame, WatchRegistry.view_mem_views, hvalue'] at hview
    · exact absurd hview (by decide)
    · rwa [entries_of_refreshes hrun hbegins hreverse hd',
        ← entries_of_refreshes hrun hbegins (.refl _) hd]
  · intro hown
    have hshown := (WatchRegistry.view_mem_views hflag).mp
      (hown flag hflag ⟨3, 3, by decide⟩ rfl)
    exact absurd (hvalue.symm.trans hshown) (by decide)
  · intro hown
    rw [← entries_of_refreshes hrun hbegins hreverse hd'] at hmark
    have hshown := (WatchRegistry.view_mem_views hmark).mp
      (hown (mark 2) hmark ⟨3, 4, by decide⟩ rfl)
    exact absurd (hvalue'.symm.trans hshown) (by decide)

end Controller
end SicDebugger
