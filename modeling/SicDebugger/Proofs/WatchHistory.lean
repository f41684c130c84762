import SicDebugger.Watch
import Mathlib.Data.List.Basic
import Mathlib.Data.List.Induction
import Mathlib.Tactic.Lemma

/-!
# The history of watched variables

The registry keeps its declarations and the bytes read for them apart. Read as a history, with the
newest operation first, the operations on a registry say both: which variables are declared, and
which bytes an address has, those of the last store that was accepted since the declarations were
last replaced. The registry follows this history, whatever the order of the operations.
-/

namespace SicDebugger

/-- A variable as a view shows it with a value. -/
def WatchEntry.view (e : WatchEntry) (value : Option (List UInt8)) : WatchView where
  file := e.file
  name := e.declared.name
  address := e.declared.address
  dataType := e.declared.dataType
  elementSize := e.declared.elementSize
  elementCount := e.declared.elementCount
  value := value

namespace WatchRegistry

/-- What may be done to a registry. -/
inductive Operation where
  | add (e : WatchEntry)
  | replace (entries : List WatchEntry)
  | clear
  | store (address : UInt32) (bytes : List UInt8)

/-- The registry after an operation. -/
def apply (w : WatchRegistry) : Operation → WatchRegistry
  | .add e => w.add e
  | .replace entries => w.replace entries
  | .clear => w.clear
  | .store address bytes => w.store address bytes

/-- A new registry after some operations. -/
def run (ops : List Operation) : WatchRegistry := ops.foldl apply {}

/-! ## Histories -/

/-- The declarations at the end of a history. -/
def declared : (history : List Operation) → List WatchEntry
  | [] => []
  | .add e :: earlier => declared earlier ++ [e]
  | .replace entries :: _ => entries
  | .clear :: _ => []
  | .store _ _ :: earlier => declared earlier

/-- The bytes of the last store to an address that a variable was declared at, unless the
declarations were replaced or dropped since. -/
def lastStored? (address : UInt32) : (history : List Operation) → Option (List UInt8)
  | [] => none
  | .add _ :: earlier => lastStored? address earlier
  | .replace _ :: _ => none
  | .clear :: _ => none
  | .store target bytes :: earlier =>
    if target = address ∧ ∃ e ∈ declared earlier, e.declared.address = address then some bytes
    else lastStored? address earlier

/-- An operation leaves the bytes of an address as they are: it adds a declaration, or stores bytes
for another address. -/
def Operation.Spares (address : UInt32) : Operation → Prop
  | .add _ => True
  | .replace _ => False
  | .clear => False
  | .store target _ => target ≠ address

variable {w : WatchRegistry} {history after before : List Operation} {op : Operation}
  {a a' address : UInt32} {bytes bytes' : List UInt8}

/-- A variable stays declared through operations that spare its address. -/
lemma declared_of_spares (before : List Operation) (hspares : ∀ op ∈ after, op.Spares address)
    (hdeclared : ∃ e ∈ declared before, e.declared.address = address) :
    ∃ e ∈ declared (after ++ before), e.declared.address = address := by
  induction after with
  | nil => exact hdeclared
  | cons op after ih =>
    obtain ⟨hop, hafter⟩ := List.forall_mem_cons.mp hspares
    obtain ⟨e, he, haddress⟩ := ih hafter
    cases op with
    | add e' => exact ⟨e, List.mem_append_left _ he, haddress⟩
    | replace entries => exact hop.elim
    | clear => exact hop.elim
    | store target bytes => exact ⟨e, he, haddress⟩

lemma lastStored?_of_spares (hspares : ∀ op ∈ after, op.Spares address) :
    lastStored? address (after ++ before) = lastStored? address before := by
  induction after with
  | nil => rfl
  | cons op after ih =>
    obtain ⟨hop, hafter⟩ := List.forall_mem_cons.mp hspares
    cases op with
    | add e => exact ih hafter
    | replace entries => exact hop.elim
    | clear => exact hop.elim
    | store target bytes =>
      rw [List.cons_append, lastStored?, if_neg fun h => hop h.1]
      exact ih hafter

/-- The bytes of an address come from a store that was accepted, and everything since then spared
the address. -/
lemma exists_store_of_lastStored? (h : lastStored? address history = some bytes) :
    ∃ after before, history = after ++ .store address bytes :: before ∧
      (∃ e ∈ declared before, e.declared.address = address) ∧
      ∀ op ∈ after, op.Spares address := by
  induction history with
  | nil => nomatch h
  | cons op history ih =>
    cases op with
    | add e =>
      obtain ⟨after, before, rfl, hdeclared, hspares⟩ := ih h
      exact ⟨.add e :: after, before, rfl, hdeclared, List.forall_mem_cons.mpr ⟨trivial, hspares⟩⟩
    | replace entries => nomatch h
    | clear => nomatch h
    | store target bytes' =>
      rw [lastStored?] at h
      split at h
      · next haccepted =>
        obtain ⟨rfl, hdeclared⟩ := haccepted
        obtain rfl : bytes' = bytes := Option.some.inj h
        exact ⟨[], history, rfl, hdeclared, by simp⟩
      · next hrefused =>
        obtain ⟨after, before, rfl, hdeclared, hspares⟩ := ih h
        -- after a store that was accepted, no store to the address can have been refused
        have hother : target ≠ address := fun heq => hrefused
          ⟨heq, declared_of_spares (.store address bytes :: before) hspares hdeclared⟩
        exact ⟨.store target bytes' :: after, before, rfl, hdeclared,
          List.forall_mem_cons.mpr ⟨hother, hspares⟩⟩

/-- An address has bytes exactly if the last operation that does not spare it is a store of them
that was accepted. -/
lemma lastStored?_eq_some_iff : lastStored? address history = some bytes ↔
    ∃ after before, history = after ++ .store address bytes :: before ∧
      (∃ e ∈ declared before, e.declared.address = address) ∧
      ∀ op ∈ after, op.Spares address := by
  refine ⟨exists_store_of_lastStored?, ?_⟩
  rintro ⟨after, before, rfl, hdeclared, hspares⟩
  rw [lastStored?_of_spares hspares, lastStored?, if_pos ⟨rfl, hdeclared⟩]

/-- An address that has bytes is declared. -/
lemma declared_of_lastStored? (h : lastStored? address history = some bytes) :
    ∃ e ∈ declared history, e.declared.address = address := by
  obtain ⟨after, before, rfl, hdeclared, hspares⟩ := lastStored?_eq_some_iff.mp h
  exact declared_of_spares (.store address bytes :: before) hspares hdeclared

/-! ## Stores -/

lemma views_eq (w : WatchRegistry) :
    w.views = w.entries.map fun e => e.view (w.valueAt? e.declared.address) := rfl

lemma declares_iff : w.declares a = true ↔ ∃ e ∈ w.entries, e.declared.address = a := by
  simp [declares]

lemma store_of_not_declares (h : w.declares a = false) : w.store a bytes = w := by
  rw [store, h, if_neg Bool.false_ne_true]

lemma entries_store (w : WatchRegistry) (a : UInt32) (bytes : List UInt8) :
    (w.store a bytes).entries = w.entries := by
  unfold store
  split <;> rfl

/-- Bytes do not change what is accepted. -/
lemma declares_store (w : WatchRegistry) (a a' : UInt32) (bytes : List UInt8) :
    (w.store a bytes).declares a' = w.declares a' := by
  rw [declares, entries_store, ← declares]

/-- A store that is accepted gives the address its bytes, and no other address any. -/
lemma valueAt?_store (w : WatchRegistry) (a address : UInt32) (bytes : List UInt8) :
    (w.store a bytes).valueAt? address =
      if a = address ∧ w.declares address = true then some bytes else w.valueAt? address := by
  cases hdeclared : w.declares a with
  | false =>
    rw [store_of_not_declares hdeclared, if_neg]
    rintro ⟨rfl, htrue⟩
    exact Bool.false_ne_true (hdeclared.symm.trans htrue)
  | true =>
    rw [store, if_pos hdeclared, valueAt?, Std.ExtTreeMap.getElem?_insert]
    simp only [Std.compare_eq_iff_eq]
    by_cases heq : a = address
    · rw [if_pos heq, if_pos ⟨heq, heq ▸ hdeclared⟩]
    · rw [if_neg heq, if_neg fun h => heq h.1]
      rfl

/-- Registries with the same declarations and the same bytes are the same. -/
lemma ext_valueAt? {w w' : WatchRegistry} (hentries : w.entries = w'.entries)
    (hvalues : ∀ address, w.valueAt? address = w'.valueAt? address) : w = w' := by
  obtain ⟨entries, values⟩ := w
  obtain ⟨entries', values'⟩ := w'
  obtain rfl : entries = entries' := hentries
  obtain rfl : values = values' := Std.ExtTreeMap.ext_getElem? hvalues
  rfl

/-- Stores to different addresses commute. -/
lemma store_comm (hne : a ≠ a') :
    (w.store a bytes).store a' bytes' = (w.store a' bytes').store a bytes := by
  refine ext_valueAt? (by simp only [entries_store]) fun address => ?_
  simp only [valueAt?_store, declares_store]
  by_cases heq : a = address
  · have hother : ¬(a' = address ∧ w.declares address = true) := fun h => hne (heq.trans h.1.symm)
    rw [if_neg hother, if_neg hother]
  · have hother : ¬(a = address ∧ w.declares address = true) := fun h => heq h.1
    rw [if_neg hother, if_neg hother]

/-! ## Registries and histories -/

/-- A registry has the declarations and the bytes of a history. -/
structure Follows (w : WatchRegistry) (history : List Operation) : Prop where
  entries_eq : w.entries = declared history
  valueAt?_eq : ∀ address, w.valueAt? address = lastStored? address history

lemma follows_new : Follows {} [] where
  entries_eq := rfl
  valueAt?_eq _ := Std.ExtTreeMap.getElem?_empty

lemma Follows.add (h : w.Follows history) (e : WatchEntry) :
    (w.add e).Follows (.add e :: history) where
  entries_eq := congrArg (· ++ [e]) h.entries_eq
  valueAt?_eq := h.valueAt?_eq

lemma follows_replace (w : WatchRegistry) (entries : List WatchEntry) (history : List Operation) :
    (w.replace entries).Follows (.replace entries :: history) where
  entries_eq := rfl
  valueAt?_eq _ := Std.ExtTreeMap.getElem?_empty

lemma follows_clear (w : WatchRegistry) (history : List Operation) :
    w.clear.Follows (.clear :: history) where
  entries_eq := rfl
  valueAt?_eq _ := Std.ExtTreeMap.getElem?_empty

lemma Follows.store (h : w.Follows history) (a : UInt32) (bytes : List UInt8) :
    (w.store a bytes).Follows (.store a bytes :: history) where
  entries_eq := (entries_store w a bytes).trans h.entries_eq
  valueAt?_eq address := by
    simp only [valueAt?_store, declares_iff, h.entries_eq, h.valueAt?_eq, lastStored?]

/-- A registry follows the operations done to it since it was new. -/
lemma follows_run (ops : List Operation) : (run ops).Follows ops.reverse := by
  -- from the end: the newest operation is the head of the history
  induction ops using List.reverseRecOn with
  | nil => exact follows_new
  | append_singleton ops op ih =>
    rw [run, List.foldl_concat, ← run, List.reverse_concat]
    cases op with
    | add e => exact ih.add e
    | replace entries => exact follows_replace (run ops) entries ops.reverse
    | clear => exact follows_clear (run ops) ops.reverse
    | store a bytes => exact ih.store a bytes

/-- An address has bytes exactly if a store of them was accepted, and everything done since then
spared the address. -/
lemma valueAt?_run_eq_some_iff {ops : List Operation} : (run ops).valueAt? address = some bytes ↔
    ∃ before after, ops = before ++ .store address bytes :: after ∧
      (run before).declares address = true ∧ ∀ op ∈ after, op.Spares address := by
  rw [(follows_run ops).valueAt?_eq, lastStored?_eq_some_iff]
  refine ⟨?_, ?_⟩
  · rintro ⟨after, before, hops, hdeclared, hspares⟩
    refine ⟨before.reverse, after.reverse, ?_, ?_, by simpa using hspares⟩
    · simpa using congrArg List.reverse hops
    · rw [declares_iff, (follows_run _).entries_eq, List.reverse_reverse]
      exact hdeclared
  · rintro ⟨before, after, rfl, hdeclared, hspares⟩
    rw [declares_iff, (follows_run _).entries_eq] at hdeclared
    exact ⟨after.reverse, before.reverse, by simp, hdeclared, by simpa using hspares⟩

/-- **A registry is a map of the last writes.** After any operations on a new registry its entries
are the declarations since these were last replaced, in order. A store is accepted exactly if a
variable is declared at its address, and changes nothing otherwise. An address has the bytes of the
last store to it that was accepted since the declarations were last replaced, and only an address
that is declared has any. The views are the declarations in order with these bytes, so that they
show the same value at the same address. Stores to different addresses commute, and neither decides
whether the other is accepted. -/
theorem registry_holds_last_writes (ops : List Operation) :
    let w := run ops
    w.entries = declared ops.reverse ∧
    (∀ a, (w.declares a = true ↔ ∃ e ∈ w.entries, e.declared.address = a) ∧
      ∀ bytes, (w.declares a = true → (w.store a bytes).valueAt? a = some bytes) ∧
        (w.declares a = false → w.store a bytes = w)) ∧
    (∀ a, w.valueAt? a = lastStored? a ops.reverse) ∧
    (∀ a bytes, w.valueAt? a = some bytes ↔
      ∃ before after, ops = before ++ .store a bytes :: after ∧
        (run before).declares a = true ∧ ∀ op ∈ after, op.Spares a) ∧
    (∀ a bytes, w.valueAt? a = some bytes → ∃ e ∈ w.entries, e.declared.address = a) ∧
    w.views = (declared ops.reverse).map
      (fun e => e.view (lastStored? e.declared.address ops.reverse)) ∧
    (∀ v ∈ w.views, ∀ v' ∈ w.views, v.address = v'.address → v.value = v'.value) ∧
    ∀ a a' bytes bytes', a ≠ a' →
      (w.store a bytes).store a' bytes' = (w.store a' bytes').store a bytes ∧
      (w.store a bytes).declares a' = w.declares a' := by
  intro w
  obtain ⟨hentries, hvalues⟩ : w.Follows ops.reverse := follows_run ops
  have hviews : w.views = (declared ops.reverse).map
      (fun e => e.view (lastStored? e.declared.address ops.reverse)) := by
    rw [views_eq, hentries]
    simp only [hvalues]
  refine ⟨hentries, ?accepted, hvalues, fun a bytes => valueAt?_run_eq_some_iff, ?held, hviews,
    ?shared, ?commute⟩
  case accepted =>
    intro a
    refine ⟨declares_iff, fun bytes => ⟨fun h => ?_, store_of_not_declares⟩⟩
    rw [valueAt?_store, if_pos ⟨rfl, h⟩]
  case held =>
    intro a bytes h
    rw [hentries]
    exact declared_of_lastStored? ((hvalues a).symm.trans h)
  case shared =>
    intro v hv v' hv' haddress
    rw [hviews] at hv hv'
    obtain ⟨e, -, rfl⟩ := List.mem_map.mp hv
    obtain ⟨e', -, rfl⟩ := List.mem_map.mp hv'
    exact congrArg (lastStored? · ops.reverse) haddress
  case commute =>
    intro a a' bytes bytes' hne
    exact ⟨store_comm hne, declares_store w a a' bytes⟩

/-- A variable is stored, declared again by two files, and stored again, with a late store for an
address that is declared no more in between. -/
theorem registry_after_reload :
    let variableAt (file : String) (address : UInt32) : WatchEntry :=
      ⟨file, { name := "X", address }⟩
    let ops : List Operation := [.add (variableAt "main.asm" 16), .add (variableAt "main.asm" 48),
      .store 16 [7], .replace [variableAt "main.asm" 16, variableAt "lib.asm" 16],
      .store 48 [9], .store 16 [42], .add (variableAt "lib.asm" 32)]
    let w := run ops
    (w.declares 16 = true ∧ (w.store 16 [1]).valueAt? 16 = some [1]) ∧
    (w.declares 48 = false ∧ w.store 48 [1] = w) ∧
    (w.valueAt? 16 = some [42] ∧ ∃ e ∈ w.entries, e.declared.address = 16) ∧
    ((variableAt "main.asm" 16).view (some [42]) ∈ w.views ∧
      (variableAt "lib.asm" 16).view (some [42]) ∈ w.views ∧
      ((variableAt "main.asm" 16).view (some [42])).value =
        ((variableAt "lib.asm" 16).view (some [42])).value) ∧
    ((16 : UInt32) ≠ 32 ∧
      (w.store 16 [1]).store 32 [2] = (w.store 32 [2]).store 16 [1]) := by
  intro variableAt ops w
  obtain ⟨-, haccepted, hvalues, -, hheld, hviews, hshared, hcommute⟩ :=
    registry_holds_last_writes ops
  have hdeclared : w.declares 16 = true := by decide +kernel
  have hdropped : w.declares 48 = false := by decide +kernel
  have hvalue : w.valueAt? 16 = some [42] := (hvalues 16).trans (by decide +kernel)
  have hmain : (variableAt "main.asm" 16).view (some [42]) ∈ w.views := by
    rw [hviews]
    decide +kernel
  have hlib : (variableAt "lib.asm" 16).view (some [42]) ∈ w.views := by
    rw [hviews]
    decide +kernel
  exact ⟨⟨hdeclared, ((haccepted 16).2 [1]).1 hdeclared⟩,
    ⟨hdropped, ((haccepted 48).2 [1]).2 hdropped⟩, ⟨hvalue, hheld 16 [42] hvalue⟩,
    ⟨hmain, hlib, hshared _ hmain _ hlib rfl⟩,
    ⟨by decide, (hcommute 16 32 [1] [2] (by decide)).1⟩⟩

end WatchRegistry
end SicDebugger
