import SicDebugger.Proofs.Numerals
import SicDebugger.Proofs.Sources
import SicDebugger.Watch

/-!
# Ranges of memory

A range is given by where it starts and how many bytes it has, in words of 32 bits that come from
anywhere. It exists if it has a byte and its last byte has an address, whether the number of bytes
is one of the environment or the product of a variable's size and count. Reckoning it in words never
takes one from zero, and passes the largest word nowhere but where this is looked for.
-/

namespace SicDebugger

/-! ## Reckoning in words -/

/-- The sum of two words, if it is a word. -/
def addWord? (a b : UInt32) : Option UInt32 :=
  if a.toNat + b.toNat < UInt32.size then some (a + b) else none

/-- The difference of two words, if it is a word. -/
def subWord? (a b : UInt32) : Option UInt32 := if b ≤ a then some (a - b) else none

/-- The product of two words, if it is a word. -/
def mulWord? (a b : UInt32) : Option UInt32 :=
  if a.toNat * b.toNat < UInt32.size then some (a * b) else none

/-- The first and the last address of a run of bytes, reckoned in words: nothing at all if a
subtraction fails, and no addresses if the run is empty or its end is no word. -/
def spanInWords (first length : UInt32) : Option (Option (UInt32 × UInt32)) :=
  if length = 0 then some none
  else (subWord? length 1).map fun more => (addWord? first more).map fun last => (first, last)

/-- The first and the last address of a variable, reckoned in words. -/
def WatchVariable.spanInWords (v : WatchVariable) : Option (Option (UInt32 × UInt32)) :=
  match mulWord? v.elementSize v.elementCount with
  | none => some none
  | some length => SicDebugger.spanInWords v.address length

/-- The ends of a range. -/
def AddressRange.ends (r : AddressRange) : UInt32 × UInt32 := (r.first, r.last)

section

variable {first a b w : UInt32} {length : Nat} {r : AddressRange} {v : WatchVariable}

lemma toNat_mul_of_mulWord? (h : mulWord? a b = some w) : w.toNat = a.toNat * b.toNat := by
  unfold mulWord? at h
  split at h
  · cases h
    rw [UInt32.toNat_mul]
    exact Nat.mod_eq_of_lt ‹_›
  · cases h

/-! ## Ranges of a length -/

/-- The ends of a range of a length, where it exists. -/
lemma AddressRange.map_ends_ofLength? (first : UInt32) (length : Nat) :
    (ofLength? first length).map (·.ends) =
      if 1 ≤ length ∧ length < UInt32.size ∧ first.toNat + length - 1 < UInt32.size then
        some (first, UInt32.ofNat (first.toNat + length - 1))
      else none := by
  unfold ofLength?
  by_cases h : 0 < length ∧ length < UInt32.size ∧ first.toNat + length ≤ UInt32.size
  · rw [dif_pos h, if_pos ⟨h.1, h.2.1, by omega⟩, Option.map_some, ends]
    dsimp only
    rw [show first.toNat + (length - 1) = first.toNat + length - 1 by omega]
  · rw [dif_neg h, if_neg fun h' => h ⟨h'.1, h'.2.1, by omega⟩, Option.map_none]

/-- A range of a length has a byte at least, and goes from its first byte to its last, which has an
address. -/
lemma AddressRange.of_ofLength? (h : ofLength? first length = some r) :
    1 ≤ length ∧ first.toNat + length - 1 < UInt32.size ∧ r.first = first ∧
      r.last.toNat = first.toNat + length - 1 := by
  have hends := map_ends_ofLength? first length
  rw [h, Option.map_some] at hends
  split at hends
  · rename_i hrange
    obtain ⟨hfirst, hlast⟩ := Prod.mk.inj (Option.some.inj hends)
    refine ⟨hrange.1, hrange.2.2, hfirst, ?_⟩
    rw [hlast, UInt32.toNat_ofNat', Nat.mod_eq_of_lt hrange.2.2]
  · cases hends

/-- In words a range is what it is. -/
lemma spanInWords_eq (first length : UInt32) :
    spanInWords first length = some ((AddressRange.ofLength? first length.toNat).map (·.ends)) := by
  rw [AddressRange.map_ends_ofLength?, spanInWords]
  by_cases h : length = 0
  · subst h
    rfl
  · have hpos : 1 ≤ length.toNat := Nat.one_le_iff_ne_zero.mpr fun hzero =>
      h (UInt32.toNat_inj.mp hzero)
    have hle : (1 : UInt32) ≤ length := UInt32.le_iff_toNat_le.mpr hpos
    have hmore : (length - 1).toNat = length.toNat - 1 := UInt32.toNat_sub_of_le _ _ hle
    rw [if_neg h, subWord?, if_pos hle, Option.map_some, addWord?, hmore]
    congr 1
    by_cases hend : first.toNat + (length.toNat - 1) < UInt32.size
    · rw [if_pos hend, if_pos ⟨hpos, length.toNat_lt, by omega⟩, Option.map_some]
      congr 2
      refine UInt32.toNat_inj.mp ?_
      rw [UInt32.toNat_add, UInt32.toNat_ofNat', hmore]
      congr 1
      omega
    · rw [if_neg hend, if_neg fun h' => hend (by omega), Option.map_none]

namespace WatchVariable

/-- The number of bytes of a variable. -/
def byteCount (v : WatchVariable) : Nat := v.elementSize.toNat * v.elementCount.toNat

/-- Whether a variable has bytes, not more than a word can count, all of them with an address. -/
def HasRange (v : WatchVariable) : Prop :=
  1 ≤ v.byteCount ∧ v.byteCount < UInt32.size ∧ v.address.toNat + v.byteCount - 1 < UInt32.size

instance (v : WatchVariable) : Decidable v.HasRange := by
  unfold HasRange
  infer_instance

/-- The address of the last byte of a variable with a range. -/
def lastAddress (v : WatchVariable) : UInt32 := UInt32.ofNat (v.address.toNat + v.byteCount - 1)

lemma toNat_lastAddress (h : v.HasRange) :
    v.lastAddress.toNat = v.address.toNat + v.byteCount - 1 := by
  rw [lastAddress, UInt32.toNat_ofNat', Nat.mod_eq_of_lt h.2.2]

lemma map_ends_range? (v : WatchVariable) :
    v.range?.map (·.ends) = if v.HasRange then some (v.address, v.lastAddress) else none :=
  AddressRange.map_ends_ofLength? v.address v.byteCount

/-- In words a variable has the range that it has. -/
lemma spanInWords_eq (v : WatchVariable) : v.spanInWords = some (v.range?.map (·.ends)) := by
  unfold spanInWords
  cases hlength : mulWord? v.elementSize v.elementCount with
  | some length =>
    dsimp only
    rw [SicDebugger.spanInWords_eq, toNat_mul_of_mulWord? hlength]
    rfl
  | none =>
    have hlarge : ¬ v.byteCount < UInt32.size := by
      unfold mulWord? at hlength
      split at hlength
      · cases hlength
      · assumption
    rw [map_ends_range?, if_neg fun h => hlarge h.2.1]

end WatchVariable

end

/-! ## The window of the configuration -/

namespace Configuration

variable {s : Surroundings} {setting : String} {usual n : Nat} {text : List Char} {r : AddressRange}

/-- A text denotes a number of 32 bits: in hexadecimal behind a mark, in decimal without one. -/
def DenotesAddress (text : List Char) (n : Nat) : Prop :=
  (match text with
    | '0' :: 'x' :: digits => Text.Denotes 16 digits n
    | '0' :: 'X' :: digits => Text.Denotes 16 digits n
    | digits => Text.Denotes 10 digits n) ∧ n < UInt32.size

/-- The number that a setting gives: what its text denotes between blanks, or the usual one where it
is not set or blank. -/
def Gives (s : Surroundings) (setting : String) (usual n : Nat) : Prop :=
  match given? s setting with
  | none => n = usual
  | some raw => DenotesAddress (Text.trimChars raw.toList) n

lemma readNumeral_eq_ok_iff {radix bound : Nat} (hradix : 0 < radix) (hbound : 0 < bound) :
    Text.readNumeral radix bound text = .ok n ↔ Text.Denotes radix text n ∧ n < bound := by
  rw [← Text.readNumeral?_eq_some_iff hradix hbound, Text.readNumeral?]
  cases Text.readNumeral radix bound text <;> simp [Except.toOption]

lemma readAddress_eq_ok_iff : readAddress text = .ok n ↔ DenotesAddress text n := by
  have hsize : 0 < UInt32.size := by decide
  fun_cases readAddress text with
  | case1 digits => exact readNumeral_eq_ok_iff (by decide : 0 < 16) hsize
  | case2 digits => exact readNumeral_eq_ok_iff (by decide : 0 < 16) hsize
  | case3 digits hx hX =>
    unfold DenotesAddress
    split
    · exact (hx _ rfl).elim
    · exact (hX _ rfl).elim
    · exact readNumeral_eq_ok_iff (by decide : 0 < 10) hsize

lemma address_eq_ok_iff : address s setting usual = .ok n ↔ Gives s setting usual n := by
  cases hgiven : given? s setting with
  | none => simp [address, Gives, hgiven, eq_comm]
  | some raw =>
    simp only [address, Gives, hgiven, ← readAddress_eq_ok_iff]
    cases readAddress (Text.trimChars raw.toList) <;> simp [Except.mapError]

lemma Gives.lt (h : Gives s setting usual n) (husual : usual < UInt32.size) : n < UInt32.size := by
  unfold Gives at h
  split at h
  · rwa [h]
  · exact h.2

lemma toNat_ofNat_of_lt {start : Nat} (h : start < UInt32.size) :
    (UInt32.ofNat start).toNat = start := by
  rw [UInt32.toNat_ofNat', Nat.mod_eq_of_lt h]

/-- The window of a start and a length is the range of that length. -/
lemma window_eq_ofLength? {start length : Nat} (hstart : Gives s "SICIDE_MEMORY_START" 0 start)
    (hlength : Gives s "SICIDE_MEMORY_LEN" 256 length) (hpos : 1 ≤ length) :
    window s = match AddressRange.ofLength? (UInt32.ofNat start) length with
      | some range => .ok range
      | none => .error .windowPastEnd := by
  rw [window, address_eq_ok_iff.mpr hstart, address_eq_ok_iff.mpr hlength]
  exact if_neg (by omega : length ≠ 0)

/-- A window that has a byte, the last of them with an address, is accepted. -/
lemma exists_window {start length : Nat} (hstart : Gives s "SICIDE_MEMORY_START" 0 start)
    (hlength : Gives s "SICIDE_MEMORY_LEN" 256 length) (hpos : 1 ≤ length)
    (hend : start + length - 1 < UInt32.size) : ∃ r, window s = .ok r := by
  rw [window_eq_ofLength? hstart hlength hpos]
  have hends := AddressRange.map_ends_ofLength? (UInt32.ofNat start) length
  rw [toNat_ofNat_of_lt (hstart.lt (by decide)), if_pos ⟨hpos, hlength.lt (by decide), hend⟩] at hends
  obtain ⟨r, hr, -⟩ := Option.map_eq_some_iff.mp hends
  exact ⟨r, by rw [hr]⟩

/-- A window that is accepted has a byte at least, and goes from its start to its last byte, which
has an address. -/
lemma gives_of_window (h : window s = .ok r) : ∃ start length,
    Gives s "SICIDE_MEMORY_START" 0 start ∧ Gives s "SICIDE_MEMORY_LEN" 256 length ∧
      1 ≤ length ∧ start + length - 1 < UInt32.size ∧
      r.first.toNat = start ∧ r.last.toNat = start + length - 1 := by
  obtain ⟨start, hstart, h⟩ := exists_of_bind_eq_ok h
  obtain ⟨length, hlength, h⟩ := exists_of_bind_eq_ok h
  have hgives := address_eq_ok_iff.mp hstart
  split at h
  · cases h
  · split at h
    · rename_i range hrange
      cases h
      obtain ⟨hpos, hend, hfirst, hlast⟩ := AddressRange.of_ofLength? hrange
      have hword := toNat_ofNat_of_lt (hgives.lt (by decide))
      rw [hword] at hend hlast
      exact ⟨start, length, hgives, address_eq_ok_iff.mp hlength, hpos, hend, hfirst ▸ hword, hlast⟩
    · cases h

/-- Everything but the memory window can be settled. -/
structure OtherwiseRight (s : Surroundings) : Prop where
  folder : ∃ entries, s.entries? (s.arguments.headD s.workingFolder) = some entries
  mode : ∃ m, mode s = .ok m
  delay : ∃ d, delay s = .ok d
  bind : ∃ a, bindAddress s = .ok a

/-- The configuration is accepted iff its window is and everything else can be settled. -/
lemma exists_read_iff : (∃ config, read s = .ok config ∧ config.controller.window = r) ↔
    OtherwiseRight s ∧ window s = .ok r := by
  unfold read
  dsimp only
  constructor
  · rintro ⟨config, h, rfl⟩
    split at h
    · cases h
    · rename_i entries hentries
      obtain ⟨m, hmode, h⟩ := exists_of_bind_eq_ok h
      obtain ⟨d, hdelay, h⟩ := exists_of_bind_eq_ok h
      obtain ⟨w, hwindow, h⟩ := exists_of_bind_eq_ok h
      obtain ⟨a, hbind, h⟩ := exists_of_bind_eq_ok h
      cases h
      exact ⟨⟨⟨entries, hentries⟩, ⟨m, hmode⟩, ⟨d, hdelay⟩, ⟨a, hbind⟩⟩, hwindow⟩
  · rintro ⟨⟨⟨entries, hentries⟩, ⟨m, hmode⟩, ⟨d, hdelay⟩, ⟨a, hbind⟩⟩, hwindow⟩
    rw [hentries, hmode, hdelay, hwindow, hbind]
    exact ⟨_, rfl, rfl⟩

/-- The window of a configuration goes from the start that is given to the last byte of it. -/
lemma gives_of_read {config : Configuration} (h : read s = .ok config) : ∃ start length,
    Gives s "SICIDE_MEMORY_START" 0 start ∧ Gives s "SICIDE_MEMORY_LEN" 256 length ∧
      1 ≤ length ∧ start + length - 1 < UInt32.size ∧
      config.controller.window.first.toNat = start ∧
      config.controller.window.last.toNat = start + length - 1 :=
  gives_of_window (exists_read_iff.mp ⟨config, h, rfl⟩).2

/-- The configuration is accepted iff its window has a byte, the last of them with an address, and
everything else can be settled. -/
lemma exists_read_ok_iff : (∃ config, read s = .ok config) ↔ OtherwiseRight s ∧
    ∃ start length, Gives s "SICIDE_MEMORY_START" 0 start ∧
      Gives s "SICIDE_MEMORY_LEN" 256 length ∧ 1 ≤ length ∧ start + length - 1 < UInt32.size := by
  constructor
  · rintro ⟨config, hread⟩
    obtain ⟨start, length, hstart, hlength, hpos, hend, -⟩ := gives_of_read hread
    exact ⟨(exists_read_iff.mp ⟨config, hread, rfl⟩).1, start, length, hstart, hlength, hpos, hend⟩
  · rintro ⟨hright, start, length, hstart, hlength, hpos, hend⟩
    obtain ⟨r, hwindow⟩ := exists_window hstart hlength hpos hend
    obtain ⟨config, hread, -⟩ := exists_read_iff.mpr ⟨hright, hwindow⟩
    exact ⟨config, hread⟩

end Configuration
end SicDebugger
