import SicDebugger.Watch
import Mathlib.Algebra.Order.Floor.Div
import Mathlib.Data.Nat.Digits.Lemmas
import Mathlib.Tactic.Lemma

/-!
# The elements of a variable

The bytes of a variable are cut into runs, one for each element, and every run is read as a number
with its highest byte first. The reader has words of 64 bits, so it gives this number modulo
`2 ^ 64`; a run of at most eight bytes can be written back from it. A full read has as many bytes as
the elements take, and then the elements say what all of the bytes are.
-/

namespace SicDebugger
namespace WatchVariable

/-- The number that bytes denote, the highest first. -/
def number (bytes : List UInt8) : Nat := Nat.ofDigits 256 (bytes.reverse.map UInt8.toNat)

/-- The lowest bytes of a number, so many of them, the highest first. -/
def lowBytes : (width : Nat) → Nat → List UInt8
  | 0, _ => []
  | width + 1, n => lowBytes width (n / 256) ++ [UInt8.ofNat n]

/-- The number of bytes in a run. An element without size takes one all the same. -/
def runLength (v : WatchVariable) : Nat := max v.elementSize.toNat 1

section

variable {more i width : Nat} {bytes : List UInt8} {v : WatchVariable}

/-! ## Numbers of bytes -/

lemma number_concat (bytes : List UInt8) (b : UInt8) :
    number (bytes ++ [b]) = b.toNat + 256 * number bytes := by
  rw [number, List.reverse_concat, List.map_cons, Nat.ofDigits_cons]
  rfl

/-- In words of 64 bits the number is reckoned modulo `2 ^ 64`. -/
lemma toNat_bigEndian (bytes : List UInt8) : (bigEndian bytes).toNat = number bytes % 2 ^ 64 := by
  induction bytes using List.reverseRecOn with
  | nil => rfl
  | append_singleton bytes b ih =>
    have hstep : bigEndian (bytes ++ [b]) = bigEndian bytes * 256 + b.toUInt64 := by
      rw [bigEndian, List.foldl_concat, ← bigEndian]
    rw [hstep, UInt64.toNat_add, UInt64.toNat_mul, ih, number_concat, UInt8.toNat_toUInt64]
    rw [show (256 : UInt64).toNat = 256 from rfl]
    omega

/-- Of nine bytes the first one is lost. -/
example : (bigEndian [1, 0, 0, 0, 0, 0, 0, 1, 2]).toNat = 258 := by decide

/-- Bytes are the lowest ones of the number that they denote. -/
lemma lowBytes_number (bytes : List UInt8) : lowBytes bytes.length (number bytes) = bytes := by
  induction bytes using List.reverseRecOn with
  | nil => rfl
  | append_singleton bytes b ih =>
    have hlt : b.toNat < 256 := b.toNat_lt
    have hrest : (b.toNat + 256 * number bytes) / 256 = number bytes := by omega
    have hlast : UInt8.ofNat (b.toNat + 256 * number bytes) = b := by
      refine UInt8.toNat_inj.mp ?_
      rw [UInt8.toNat_ofNat']
      omega
    rw [number_concat, List.length_append, List.length_singleton, lowBytes, hrest, ih, hlast]

/-- At most eight bytes denote a number of 64 bits. -/
lemma number_lt (h : bytes.length ≤ 8) : number bytes < 2 ^ 64 := by
  have hdigits : ∀ d ∈ bytes.reverse.map UInt8.toNat, d < 256 := by
    simp only [List.mem_map]
    rintro _ ⟨b, _, rfl⟩
    exact b.toNat_lt
  have hlt := Nat.ofDigits_lt_base_pow_length (by decide) hdigits
  rw [List.length_map, List.length_reverse] at hlt
  calc number bytes < 256 ^ bytes.length := hlt
    _ ≤ 256 ^ 8 := Nat.pow_le_pow_right (by decide) h
    _ = 2 ^ 64 := by decide

/-- At most eight bytes are written back from the word that is read of them. -/
lemma lowBytes_bigEndian (h : bytes.length ≤ 8) :
    lowBytes bytes.length (bigEndian bytes).toNat = bytes := by
  rw [toNat_bigEndian, Nat.mod_eq_of_lt (number_lt h), lowBytes_number]

/-! ## Runs -/

lemma length_runs (more : Nat) (bytes : List UInt8) :
    (runs more bytes).length = bytes.length ⌈/⌉ (more + 1) := by
  simp only [Nat.ceilDiv_eq_add_pred_div]
  induction bytes using runs.induct more with
  | case1 =>
    rw [runs]
    exact (Nat.div_eq_of_lt (by simp)).symm
  | case2 b r ih =>
    rw [runs, List.length_cons, ih, List.length_drop, List.length_cons]
    rcases Nat.le_total r.length more with hle | hge
    · have hone : (r.length + 1 + (more + 1) - 1) / (more + 1) = 1 :=
        Nat.div_eq_of_lt_le (by omega) (by omega)
      have hnone : (r.length - more + (more + 1) - 1) / (more + 1) = 0 :=
        Nat.div_eq_of_lt (by omega)
      rw [hone, hnone]
    · rw [← Nat.add_div_right _ (Nat.succ_pos more)]
      congr 1
      omega

lemma getElem_runs (h : i < (runs more bytes).length) :
    (runs more bytes)[i] = (bytes.drop (i * (more + 1))).take (more + 1) := by
  induction bytes using runs.induct more generalizing i with
  | case1 => simp [runs] at h
  | case2 b r ih =>
    simp only [runs]
    cases i with
    | zero => simp
    | succ i =>
      rw [runs, List.length_cons, Nat.succ_lt_succ_iff] at h
      rw [List.getElem_cons_succ, ih h, List.drop_drop, Nat.succ_mul, ← Nat.add_assoc,
        List.drop_succ_cons, Nat.add_comm (i * (more + 1))]

/-- No byte is lost between runs. -/
lemma flatten_runs (more : Nat) (bytes : List UInt8) : (runs more bytes).flatten = bytes := by
  induction bytes using runs.induct more with
  | case1 => simp [runs]
  | case2 b r ih => rw [runs, List.flatten_cons, ih, List.cons_append, List.take_append_drop]

/-! ## Elements -/

lemma elements_eq (v : WatchVariable) (bytes : List UInt8) : v.elements bytes =
    ((runs (v.runLength - 1) bytes).take v.elementCount.toNat).map bigEndian := by
  rw [elements, runLength]
  congr 3
  omega

lemma runLength_pos (v : WatchVariable) : 1 ≤ v.runLength := Nat.le_max_right _ _

/-- There are as many elements as runs, but no more than the variable has. -/
lemma length_elements (v : WatchVariable) (bytes : List UInt8) :
    (v.elements bytes).length = min v.elementCount.toNat (bytes.length ⌈/⌉ v.runLength) := by
  rw [elements_eq, List.length_map, List.length_take, length_runs,
    Nat.sub_add_cancel v.runLength_pos]

/-- Each element is the number of its run. -/
lemma getElem_elements (h : i < (v.elements bytes).length) :
    (v.elements bytes)[i] = bigEndian ((bytes.drop (i * v.runLength)).take v.runLength) := by
  simp only [elements_eq, List.getElem_map, List.getElem_take, getElem_runs,
    Nat.sub_add_cancel v.runLength_pos]

/-! ## Full reads -/

section

variable (hsize : 1 ≤ v.elementSize.toNat)
  (hlength : bytes.length = v.elementSize.toNat * v.elementCount.toNat)

include hsize hlength

/-- The runs of a full read are as many as the elements. -/
lemma length_runs_of_full :
    (runs (v.runLength - 1) bytes).length = v.elementCount.toNat := by
  have hrun : v.runLength = v.elementSize.toNat := Nat.max_eq_left hsize
  rw [length_runs, Nat.sub_add_cancel v.runLength_pos, hlength, hrun, Nat.ceilDiv_eq_add_pred_div]
  refine Nat.div_eq_of_lt_le ?_ ?_
  · rw [Nat.mul_comm]
    omega
  · rw [Nat.succ_mul, Nat.mul_comm v.elementCount.toNat]
    omega

/-- All of them are whole. -/
lemma length_of_mem_runs {run : List UInt8} (hrun : run ∈ runs (v.runLength - 1) bytes) :
    run.length = v.elementSize.toNat := by
  obtain ⟨i, hi, rfl⟩ := List.getElem_of_mem hrun
  rw [getElem_runs, Nat.sub_add_cancel v.runLength_pos, List.length_take, List.length_drop, hlength,
    runLength, Nat.max_eq_left hsize]
  rw [length_runs_of_full hsize hlength] at hi
  have hbehind : v.elementSize.toNat * (i + 1) ≤ v.elementSize.toNat * v.elementCount.toNat :=
    Nat.mul_le_mul_left _ hi
  rw [Nat.mul_succ, Nat.mul_comm _ i] at hbehind
  omega

lemma elements_of_full : v.elements bytes = (runs (v.runLength - 1) bytes).map bigEndian := by
  rw [elements_eq, List.take_of_length_le (length_runs_of_full hsize hlength).le]

/-- Elements of at most eight bytes are written back to the bytes that were read. -/
lemma flatMap_lowBytes_elements (hword : v.elementSize.toNat ≤ 8) :
    (v.elements bytes).flatMap (fun x => lowBytes v.elementSize.toNat x.toNat) = bytes := by
  have hback : ∀ run ∈ runs (v.runLength - 1) bytes,
      lowBytes v.elementSize.toNat (bigEndian run).toNat = run := by
    intro run hrun
    have hrunlength := length_of_mem_runs hsize hlength hrun
    rw [← hrunlength]
    exact lowBytes_bigEndian (hrunlength.trans_le hword)
  rw [elements_of_full hsize hlength, List.flatMap_map, List.flatMap_def,
    List.map_congr_left hback, List.map_id', flatten_runs]

end

end

/-- **The elements of a variable are the numbers of its runs.** There are as many as runs of bytes,
the last of which may be short, but no more than the variable has, and each is the number of its
run modulo `2 ^ 64`. A read of the range of the variable has as many bytes as the elements take.
Then there are all of the elements, and if they have at most eight bytes, writing them one after the
other gives the bytes back, so that no other bytes of a full read have these elements. -/
theorem elements_split_bytes (v : WatchVariable) (bytes : List UInt8) :
    (v.elements bytes).length = min v.elementCount.toNat (bytes.length ⌈/⌉ v.runLength) ∧
    (∀ (i : Nat) (h : i < (v.elements bytes).length), (v.elements bytes)[i].toNat =
      number ((bytes.drop (i * v.runLength)).take v.runLength) % 2 ^ 64) ∧
    (∀ range, v.range? = some range →
      range.size = v.elementSize.toNat * v.elementCount.toNat) ∧
    (1 ≤ v.elementSize.toNat → v.elementSize.toNat ≤ 8 →
      bytes.length = v.elementSize.toNat * v.elementCount.toNat →
      (v.elements bytes).length = v.elementCount.toNat ∧
      (v.elements bytes).flatMap (fun x => lowBytes v.elementSize.toNat x.toNat) = bytes ∧
      ∀ other : List UInt8, other.length = bytes.length →
        v.elements other = v.elements bytes → other = bytes) := by
  refine ⟨length_elements v bytes, ?number, ?range, ?full⟩
  case number =>
    intro i h
    rw [getElem_elements, toNat_bigEndian]
  case range =>
    intro range hrange
    exact AddressRange.size_ofLength? hrange
  case full =>
    intro hsize hword hlength
    have hback := flatMap_lowBytes_elements hsize hlength hword
    refine ⟨?_, hback, ?_⟩
    · rw [elements_of_full hsize hlength, List.length_map, length_runs_of_full hsize hlength]
    · intro other hother hsame
      rw [← flatMap_lowBytes_elements hsize (hother.trans hlength) hword, hsame, hback]

/-- A full read of two words: the second one, and the bytes back from both. -/
theorem elements_of_two_words :
    let v : WatchVariable :=
      { name := "W", address := 16, dataType := "WORD", declaredCount := some 2 }
    let bytes : List UInt8 := [0, 0, 5, 1, 0, 0]
    (∃ h : 1 < (v.elements bytes).length, (v.elements bytes)[1].toNat = 65536) ∧
    (∃ range, v.range? = some range ∧ range.size = 6) ∧
    (1 ≤ v.elementSize.toNat ∧ v.elementSize.toNat ≤ 8 ∧
      bytes.length = v.elementSize.toNat * v.elementCount.toNat) ∧
    (v.elements bytes).flatMap (fun x => lowBytes v.elementSize.toNat x.toNat) = bytes ∧
    ([0, 0, 5, 1, 0, 1] : List UInt8).length = bytes.length ∧
    v.elements [0, 0, 5, 1, 0, 1] ≠ v.elements bytes := by
  intro v bytes
  obtain ⟨-, hnumber, hrange, hfull⟩ := elements_split_bytes v bytes
  have hsize : 1 ≤ v.elementSize.toNat ∧ v.elementSize.toNat ≤ 8 ∧
      bytes.length = v.elementSize.toNat * v.elementCount.toNat := by decide +kernel
  obtain ⟨hlength, hback, hinj⟩ := hfull hsize.1 hsize.2.1 hsize.2.2
  have hsecond : 1 < (v.elements bytes).length := by
    rw [hlength]
    decide
  have hspan : v.range? = some ⟨16, 21, by decide⟩ := by decide +kernel
  have hsix : v.elementSize.toNat * v.elementCount.toNat = 6 := by decide +kernel
  refine ⟨⟨hsecond, (hnumber 1 hsecond).trans (by decide +kernel)⟩,
    ⟨_, hspan, (hrange _ hspan).trans hsix⟩, hsize, hback, rfl, fun hsame => ?_⟩
  exact absurd (hinj [0, 0, 5, 1, 0, 1] rfl hsame) (by decide)

end WatchVariable
end SicDebugger
