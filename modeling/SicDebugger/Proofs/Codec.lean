import SicDebugger.Proofs.JsonText
import SicDebugger.Proofs.Range

/-!
# Reading back single values and lists

What is written for a single value is read as it, and so is what is written for an option or for a
list, provided the elements are. All of it is writable as far as the elements are.
-/

namespace SicDebugger.Json

section

variable {α : Type} {depth n bound : Nat}

/-! ## Writability -/

@[simp] lemma writable_null : Writable depth .null := by simp [Writable]

@[simp] lemma writable_bool (b : Bool) : Writable depth (.bool b) := by simp [Writable]

@[simp] lemma writable_string (s : String) : Writable depth (.string s) := by simp [Writable]

lemma writable_ofNat (hn : n < UInt64.size) : Writable depth (.ofNat n) :=
  ⟨fun _ h => (nomatch h), Number.isSome_toBinary64?_ofNat hn⟩

@[simp] lemma writable_uint8 (b : UInt8) : Writable depth (.ofNat b.toNat) :=
  writable_ofNat (b.toNat_lt.trans (by decide))

@[simp] lemma writable_uint32 (w : UInt32) : Writable depth (.ofNat w.toNat) :=
  writable_ofNat (w.toNat_lt.trans (by decide))

@[simp] lemma writable_uint64 (w : UInt64) : Writable depth (.ofNat w.toNat) :=
  writable_ofNat w.toNat_lt

lemma writable_ofOption {encode : α → Json} {o : Option α} (h : ∀ a ∈ o, (encode a).Writable depth) :
    (ofOption encode o).Writable depth := by
  cases o with
  | none => exact writable_null
  | some a => exact h a rfl

lemma writable_array {items : List Json} (h : ∀ j ∈ items, j.Writable depth) :
    Writable (depth + 1) (.array items) :=
  ⟨Nat.succ_pos depth, writableItems_iff.mpr h⟩

lemma writable_ofList {encode : α → Json} {xs : List α} (h : ∀ x ∈ xs, (encode x).Writable depth) :
    Writable (depth + 1) (ofList encode xs) :=
  writable_array (by simpa using h)

lemma writable_object {members : List (String × Json)} (h : ∀ m ∈ members, m.2.Writable depth) :
    Writable (depth + 1) (.object members) :=
  ⟨Nat.succ_pos depth, writableMembers_iff.mpr h⟩

/-! ## Reading back -/

@[simp] lemma string?_string (s : String) : string? (.string s) = some s := rfl

@[simp] lemma bool?_bool (b : Bool) : bool? (.bool b) = some b := rfl

lemma nat?_ofNat (hn : n < bound) : nat? bound (.ofNat n) = some n := by
  simp [nat?, ofNat, Number.ofNat, Number.toNat?, hn]

@[simp] lemma uint8?_ofNat (b : UInt8) : uint8? (.ofNat b.toNat) = some b := by
  simp [uint8?, nat?_ofNat b.toNat_lt]

@[simp] lemma uint32?_ofNat (w : UInt32) : uint32? (.ofNat w.toNat) = some w := by
  simp [uint32?, nat?_ofNat w.toNat_lt]

@[simp] lemma uint64?_ofNat (w : UInt64) : uint64? (.ofNat w.toNat) = some w := by
  simp [uint64?, nat?_ofNat w.toNat_lt]

/-- An option is read back if its value is, and is not written as null. -/
lemma optional?_ofOption {encode : α → Json} {read : Json → Option α} {o : Option α}
    (hnull : ∀ a ∈ o, encode a ≠ .null) (h : ∀ a ∈ o, read (encode a) = some a) :
    optional? read (ofOption encode o) = some o := by
  cases o with
  | none => rfl
  | some a =>
    have hread := h a rfl
    have hne := hnull a rfl
    unfold optional? ofOption
    split
    · contradiction
    · rw [hread, Option.map_some]

@[simp] lemma optional?_ofNat (read : Json → Option α) (n : Nat) :
    optional? read (.ofNat n) = (read (.ofNat n)).map some := rfl

/-- Reading what is written, element by element. -/
lemma mapM_map_eq_some {β γ : Type} {write : α → β} {read : β → Option γ} {value : α → γ}
    {xs : List α} (h : ∀ x ∈ xs, read (write x) = some (value x)) :
    (xs.map write).mapM read = some (xs.map value) := by
  induction xs with
  | nil => rfl
  | cons x r ih =>
    rw [List.map_cons, List.mapM_cons, h x List.mem_cons_self,
      ih fun y hy => h y (List.mem_cons_of_mem x hy)]
    rfl

/-- A list is read back if its elements are. -/
lemma list?_ofList {encode : α → Json} {read : Json → Option α} {xs : List α}
    (h : ∀ x ∈ xs, read (encode x) = some x) : list? read (ofList encode xs) = some xs :=
  (mapM_map_eq_some h).trans (congrArg some (List.map_id xs))

end

end SicDebugger.Json
