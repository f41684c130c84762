import SicDebugger.Proofs.Focus
import SicDebugger.Proofs.HexText

/-!
# Addresses of rows

The assembler writes the address of a row as a hexadecimal text. Of the spellings of a number the
row reads every one: digits of either case behind any number of zeros, with a plus sign or a mark
or neither, between blanks. It reads nothing else, and no number past the end of the address space.
So breakpoints and the focus go by the number and not by its spelling.
-/

namespace SicDebugger

namespace Text

variable {s : List Char} {n : Nat}

/-- In a numeral there is no letter of a mark. -/
lemma mark_not_mem_denotes (h : Denotes 16 s n) : 'x' ∉ s ∧ 'X' ∉ s := by
  have hletter : ∀ c ∈ s, c ≠ 'x' ∧ c ≠ 'X' := forall_mem_denotes h (by decide) (by decide)
  exact ⟨fun hmem => (hletter 'x' hmem).1 rfl, fun hmem => (hletter 'X' hmem).2 rfl⟩

/-- No mark is dropped from a text without the letters of marks. -/
lemma dropMark_of_not_mem (hx : 'x' ∉ s) (hX : 'X' ∉ s) : ListingRow.dropMark s = s := by
  unfold ListingRow.dropMark
  split
  · exact absurd (by simp) hx
  · exact absurd (by simp) hX
  · rfl

/-- A text has a value behind one mark at most exactly if, once it is trimmed and one mark is
dropped, it is a numeral. -/
lemma hexNumber_iff {text : String} :
    HexNumber text n ↔ Denotes 16 (ListingRow.dropMark (trimChars text.toList)) n := by
  have hsmall : ∀ c ∈ ['0', 'x'], isBlank c = false :=
    List.forall_mem_cons.mpr ⟨rfl, List.forall_mem_singleton.mpr rfl⟩
  have hlarge : ∀ c ∈ ['0', 'X'], isBlank c = false :=
    List.forall_mem_cons.mpr ⟨rfl, List.forall_mem_singleton.mpr rfl⟩
  rw [HexNumber, hexText_iff (List.forall_mem_nil _), hexText_iff hsmall, hexText_iff hlarge]
  constructor
  · rintro (⟨t, htext, ht⟩ | ⟨t, htext, ht⟩ | ⟨t, htext, ht⟩)
    -- a numeral without a mark does not look like one with it
    · obtain ⟨hx, hX⟩ := mark_not_mem_denotes ht
      rwa [htext, List.nil_append, dropMark_of_not_mem hx hX]
    · rwa [htext]
    · rwa [htext]
  · intro h
    unfold ListingRow.dropMark at h
    split at h
    case h_1 r htext => exact .inr (.inl ⟨r, htext, h⟩)
    case h_2 r htext => exact .inr (.inr ⟨r, htext, h⟩)
    case h_3 => exact .inl ⟨_, rfl, h⟩

end Text

namespace ListingRow

variable {r : ListingRow} {pc : UInt32}

/-- The address of a row is the number that its text has as its value. -/
lemma address?_eq_some_iff : r.address? = some pc ↔ Text.HexNumber r.addressHex pc.toNat := by
  rw [address?, Option.map_eq_some_iff, Text.hexNumber_iff]
  simp only [Text.readNumeral?_eq_some_iff (show 0 < 16 by decide) (show 0 < UInt32.size by decide)]
  constructor
  · rintro ⟨n, ⟨hn, hlt⟩, rfl⟩
    rwa [UInt32.toNat_ofNat_of_lt' hlt]
  · intro hpc
    exact ⟨pc.toNat, ⟨hpc, pc.toNat_lt⟩, UInt32.ofNat_toNat⟩

/-- A row has no address if its text has no value or one past the address space. -/
lemma address?_eq_none_iff :
    r.address? = none ↔ ∀ n, Text.HexNumber r.addressHex n → 2 ^ 32 ≤ n := by
  rw [Option.eq_none_iff_forall_ne_some]
  simp only [ne_eq, address?_eq_some_iff]
  constructor
  · intro hnone n hn
    by_contra hsmall
    refine hnone (UInt32.ofNat n) ?_
    rwa [UInt32.toNat_ofNat_of_lt' (not_le.mp hsmall)]
  · intro hlarge pc hpc
    have := hlarge pc.toNat hpc
    have := pc.toNat_lt
    omega

/-- Rows are instructions at a common address if they have code and their texts have a common value
in the address space. -/
lemma exists_executesAt_iff {r r' : ListingRow} :
    (∃ pc, r.executesAt pc = true ∧ r'.executesAt pc = true) ↔
      ¬ r.IsBare ∧ ¬ r'.IsBare ∧
        ∃ n < 2 ^ 32, Text.HexNumber r.addressHex n ∧ Text.HexNumber r'.addressHex n := by
  simp only [executesAt_iff]
  constructor
  · rintro ⟨pc, ⟨hcode, haddress⟩, hcode', haddress'⟩
    exact ⟨hcode, hcode', pc.toNat, pc.toNat_lt, address?_eq_some_iff.mp haddress,
      address?_eq_some_iff.mp haddress'⟩
  · rintro ⟨hcode, hcode', n, hlt, hn, hn'⟩
    rw [← UInt32.toNat_ofNat_of_lt' hlt] at hn hn'
    exact ⟨UInt32.ofNat n, ⟨hcode, address?_eq_some_iff.mpr hn⟩,
      ⟨hcode', address?_eq_some_iff.mpr hn'⟩⟩

/-- The address of a row is read from every text that has the value of an address behind one mark at
most, and from no other. Two rows with code are instructions at a common address exactly if their
texts have the same value, however it is spelled in each. -/
theorem address_read_exactly :
    (∀ (r : ListingRow) (pc : UInt32),
      r.address? = some pc ↔ Text.HexNumber r.addressHex pc.toNat) ∧
    (∀ r : ListingRow, r.address? = none ↔ ∀ n, Text.HexNumber r.addressHex n → 2 ^ 32 ≤ n) ∧
    ∀ r r' : ListingRow, (∃ pc, r.executesAt pc = true ∧ r'.executesAt pc = true) ↔
      ¬ r.IsBare ∧ ¬ r'.IsBare ∧
        ∃ n < 2 ^ 32, Text.HexNumber r.addressHex n ∧ Text.HexNumber r'.addressHex n :=
  ⟨fun _ _ => address?_eq_some_iff, fun _ => address?_eq_none_iff,
    fun _ _ => exists_executesAt_iff⟩

/-- Two spellings of one number, and a number past the address space. -/
theorem address_read_in_two_spellings :
    let r : ListingRow := { addressHex := "\t0x+001aF ", rawCodeHex := "4B" }
    let r' : ListingRow := { addressHex := "1Af\u3000", rawCodeHex := " 0F" }
    (∃ pc, r.executesAt pc = true ∧ r'.executesAt pc = true) ∧
    ∀ n, Text.HexNumber "0X0100000000" n → 2 ^ 32 ≤ n := by
  intro r r'
  obtain ⟨hsome, hnone, hmeet⟩ := address_read_exactly
  have hr : r.address? = some 431 := by decide +kernel
  have hr' : r'.address? = some 431 := by decide +kernel
  have hcode : ¬ r.IsBare := hasCode_iff.mp (by decide +kernel)
  have hcode' : ¬ r'.IsBare := hasCode_iff.mp (by decide +kernel)
  have hboth := And.intro ((hsome r 431).mp hr) ((hsome r' 431).mp hr')
  refine ⟨(hmeet r r').mpr ⟨hcode, hcode', 431, by decide, hboth⟩, ?_⟩
  exact (hnone { addressHex := "0X0100000000" }).mp (by decide +kernel)

end ListingRow
end SicDebugger
