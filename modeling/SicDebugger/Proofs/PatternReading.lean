import SicDebugger.Proofs.PatternText
import SicDebugger.Proofs.RowAddresses

/-!
# Patterns read from text

A pattern has 48 bits, and its text is meant to be a hexadecimal number of so many bits behind one
mark at most. The reader is more lenient: it drops marks as long as there are any, first those with
the small letter and then those with the capital one, and it takes any word of 64 bits. So it reads
every text of a pattern, and others besides; and of a wider word the text that is written has only
the lowest 48 bits.
-/

namespace SicDebugger
namespace Float48

open Text (Denotes HexText HexNumber)

variable {raw : UInt64} {text : String} {s t : List Char} {small large n : ℕ} {x : Char}

/-- So many marks `0x`, and then so many marks `0X`. -/
def marks (small large : ℕ) : List Char :=
  (List.replicate small ['0', 'x']).flatten ++ (List.replicate large ['0', 'X']).flatten

/-! ## Dropping marks -/

lemma dropMarks_append (x : Char) (count : ℕ) (s : List Char) :
    dropMarks x ((List.replicate count ['0', x]).flatten ++ s) = dropMarks x s := by
  induction count with
  | zero => rfl
  | succ count ih =>
    rw [List.replicate_succ, List.flatten_cons, List.append_assoc, List.cons_append,
      List.singleton_append, dropMarks, if_pos rfl, ih]

/-- A text is what is left of it behind the marks that were dropped. -/
lemma exists_marks (x : Char) (s : List Char) :
    ∃ count, s = (List.replicate count ['0', x]).flatten ++ dropMarks x s := by
  induction s using dropMarks.induct x with
  | case1 r ih =>
    obtain ⟨count, hr⟩ := ih
    refine ⟨count + 1, ?_⟩
    rw [dropMarks, if_pos rfl, List.replicate_succ, List.flatten_cons, List.append_assoc, ← hr]
    rfl
  | case2 c r hc => exact ⟨0, by rw [dropMarks, if_neg hc]; rfl⟩
  | case3 s hs => exact ⟨0, (dropMarks.eq_2 x s hs).symm⟩

lemma mem_marks {c : Char} (hc : c ∈ marks small large) : c = '0' ∨ c = 'x' ∨ c = 'X' := by
  rw [marks, List.mem_append] at hc
  rcases hc with hc | hc
  all_goals
    obtain ⟨mark, hmark, hmem⟩ := List.mem_flatten.mp hc
    rw [List.eq_of_mem_replicate hmark] at hmem
    simp only [List.mem_cons, List.not_mem_nil, or_false] at hmem
    tauto

lemma isBlank_of_mem_marks : ∀ c ∈ marks small large, Text.isBlank c = false := by
  intro c hc
  rcases mem_marks hc with rfl | rfl | rfl <;> rfl

/-- What is left when all marks are dropped is a numeral exactly if the text is one behind marks. -/
lemma denotes_dropMarks_iff : Denotes 16 (dropMarks 'X' (dropMarks 'x' s)) n ↔
    ∃ small large t, s = marks small large ++ t ∧ Denotes 16 t n := by
  constructor
  · intro h
    obtain ⟨small, hsmall⟩ := exists_marks 'x' s
    obtain ⟨large, hlarge⟩ := exists_marks 'X' (dropMarks 'x' s)
    refine ⟨small, large, _, ?_, h⟩
    rw [marks, List.append_assoc, ← hlarge, ← hsmall]
  · rintro ⟨small, large, t, rfl, ht⟩
    obtain ⟨hx, hX⟩ := Text.mark_not_mem_denotes ht
    -- the small letter stands in no mark with the capital one
    have hcapital : 'x' ∉ (List.replicate large ['0', 'X']).flatten ++ t := by
      rw [List.mem_append, not_or]
      refine ⟨?_, hx⟩
      intro hmem
      obtain ⟨mark, hmark, hletter⟩ := List.mem_flatten.mp hmem
      rw [List.eq_of_mem_replicate hmark] at hletter
      exact absurd hletter (by decide)
    rw [marks, List.append_assoc, dropMarks_append, dropMarks_of_not_mem hcapital,
      dropMarks_append, dropMarks_of_not_mem hX]
    exact ht

/-! ## Texts that are read -/

/-- A text is read as the word that it has as its value behind marks. -/
lemma ofHex_eq_ok_iff :
    ofHex text = .ok raw ↔ ∃ small large, HexText (marks small large) text raw.toNat := by
  have hnumeral : ofHex text = .ok raw ↔ Text.readNumeral? 16 UInt64.size
      (dropMarks 'X' (dropMarks 'x' (Text.trimChars text.toList))) = some raw.toNat := by
    rw [ofHex]
    split
    · next n hn =>
      have hlt := ((Text.readNumeral?_eq_some_iff (by decide) (by decide)).mp hn).2
      rw [Except.ok.injEq, hn, Option.some.injEq, ← UInt64.toNat_inj, UInt64.toNat_ofNat_of_lt' hlt]
    · next hnone =>
      simp [hnone]
  rw [hnumeral, Text.readNumeral?_eq_some_iff (by decide) (by decide),
    and_iff_left (show raw.toNat < UInt64.size from raw.toNat_lt), denotes_dropMarks_iff]
  simp only [Text.hexText_iff isBlank_of_mem_marks]

/-- A word is read from its own text exactly if it has 48 bits. -/
lemma ofHex_toHex_eq_iff : ofHex (toHex raw) = .ok raw ↔ raw.toNat < 2 ^ 48 := by
  rw [ofHex_toHex, Except.ok.injEq, ← UInt64.toNat_inj, toNat_lowest]
  exact Nat.mod_eq_iff_lt (by decide)

/-- A text is refused if it has no value behind marks, or one past the words of 64 bits. -/
lemma ofHex_eq_error_iff : ofHex text = .error (.invalidFloat text) ↔
    ∀ small large n, HexText (marks small large) text n → 2 ^ 64 ≤ n := by
  have herror : ofHex text = .error (.invalidFloat text) ↔ ∀ raw, ofHex text ≠ .ok raw := by
    rw [ofHex]
    split <;> simp
  simp only [herror, ne_eq, ofHex_eq_ok_iff, not_exists]
  constructor
  · intro hnone small large n hn
    by_contra hsmall
    refine hnone (UInt64.ofNat n) small large ?_
    rwa [UInt64.toNat_ofNat_of_lt' (not_le.mp hsmall)]
  · intro hlarge raw small large hraw
    exact absurd (hlarge small large _ hraw) (not_le.mpr raw.toNat_lt)

/-! ## Texts of patterns -/

/-- The text is read exactly if it has the value of a pattern behind one mark at most, and what is
read is read again from its own text. -/
def ReadAsPattern (text : String) : Prop :=
  ((∃ raw, ofHex text = .ok raw) ↔ ∃ n < 2 ^ 48, HexNumber text n) ∧
    ∀ raw, ofHex text = .ok raw → ofHex (toHex raw) = .ok raw

lemma hexNumber_iff_marks : HexNumber text n ↔
    ∃ small large, small + large ≤ 1 ∧ HexText (marks small large) text n := by
  constructor
  · rintro (h | h | h)
    · exact ⟨0, 0, by decide, h⟩
    · exact ⟨1, 0, by decide, h⟩
    · exact ⟨0, 1, by decide, h⟩
  · rintro ⟨small, large, hcount, h⟩
    obtain ⟨rfl, rfl⟩ | ⟨rfl, rfl⟩ | ⟨rfl, rfl⟩ :
        small = 0 ∧ large = 0 ∨ small = 1 ∧ large = 0 ∨ small = 0 ∧ large = 1 := by omega
    · exact .inl h
    · exact .inr (.inl h)
    · exact .inr (.inr h)

/-- A letter of a mark stands in marks. -/
lemma letter_mem_marks (h : 0 < small + large) :
    'x' ∈ marks small large ∨ 'X' ∈ marks small large := by
  cases small with
  | succ small => exact .inl (by simp [marks, List.replicate_succ])
  | zero =>
    cases large with
    | succ large => exact .inr (by simp [marks, List.replicate_succ])
    | zero => exact absurd h (by decide)

/-- Where one mark is dropped, the others stay. -/
lemma dropMark_marks (h : 0 < small + large) (t : List Char) : ∃ small' large',
    ListingRow.dropMark (marks small large ++ t) = marks small' large' ++ t ∧
      small' + large' + 1 = small + large := by
  cases small with
  | succ small => exact ⟨small, large, rfl, by omega⟩
  | zero =>
    cases large with
    | succ large => exact ⟨0, large, rfl, by omega⟩
    | zero => exact absurd h (by decide)

/-- A text with a value behind marks has no value behind one mark at most if it has more of them. -/
lemma count_marks_le {m : ℕ} (h : HexText (marks small large) text n) (hm : HexNumber text m) :
    small + large ≤ 1 := by
  obtain ⟨t, htext, -⟩ := (Text.hexText_iff isBlank_of_mem_marks).mp h
  rw [Text.hexNumber_iff, htext] at hm
  by_contra hmore
  -- behind the one mark that is dropped there is a letter that no digit has
  obtain ⟨small', large', hdrop, hcount⟩ := dropMark_marks (show 0 < small + large by omega) t
  rw [hdrop] at hm
  obtain ⟨hx, hX⟩ := Text.mark_not_mem_denotes hm
  rcases letter_mem_marks (show 0 < small' + large' by omega) with hmem | hmem
  · exact hx (List.mem_append_left t hmem)
  · exact hX (List.mem_append_left t hmem)

/-- The reader gives the value of a text behind marks, as many as there are, if it is one of 64
bits, and refuses the text otherwise; and what is read is read again from its own text if it has 48
bits. So the text is read as one of a pattern exactly if it has at most one mark where it has a
value of 64 bits, and this value is a pattern. -/
theorem pattern_read_iff (text : String) :
    (∀ raw, ofHex text = .ok raw ↔
      ∃ small large, HexText (marks small large) text raw.toNat) ∧
    (ofHex text = .error (.invalidFloat text) ↔
      ∀ small large n, HexText (marks small large) text n → 2 ^ 64 ≤ n) ∧
    (∀ raw, ofHex text = .ok raw → (ofHex (toHex raw) = .ok raw ↔ raw.toNat < 2 ^ 48)) ∧
    (ReadAsPattern text ↔ ∀ small large n, HexText (marks small large) text n →
      n < 2 ^ 64 → small + large ≤ 1 ∧ n < 2 ^ 48) := by
  refine ⟨fun _ => ofHex_eq_ok_iff, ofHex_eq_error_iff, fun _ _ => ofHex_toHex_eq_iff, ?_⟩
  constructor
  · rintro ⟨haccepted, hagain⟩ small large n hn hlt
    have hword : (UInt64.ofNat n).toNat = n := UInt64.toNat_ofNat_of_lt' hlt
    have hread : ofHex text = .ok (UInt64.ofNat n) :=
      ofHex_eq_ok_iff.mpr ⟨small, large, hword.symm ▸ hn⟩
    -- the text has one mark at most with some value, so there are no more marks before this one
    obtain ⟨m, -, hm⟩ := haccepted.mp ⟨_, hread⟩
    have hpattern := ofHex_toHex_eq_iff.mp (hagain _ hread)
    rw [hword] at hpattern
    exact ⟨count_marks_le hn hm, hpattern⟩
  · intro hvalues
    have hread : ∀ raw, ofHex text = .ok raw → HexNumber text raw.toNat ∧ raw.toNat < 2 ^ 48 := by
      intro raw hraw
      obtain ⟨small, large, hn⟩ := ofHex_eq_ok_iff.mp hraw
      obtain ⟨hcount, hlt⟩ := hvalues small large _ hn raw.toNat_lt
      exact ⟨hexNumber_iff_marks.mpr ⟨small, large, hcount, hn⟩, hlt⟩
    refine ⟨⟨?_, ?_⟩, fun raw hraw => ofHex_toHex_eq_iff.mpr (hread raw hraw).2⟩
    · rintro ⟨raw, hraw⟩
      obtain ⟨hnumber, hlt⟩ := hread raw hraw
      exact ⟨raw.toNat, hlt, hnumber⟩
    · rintro ⟨n, hlt, hnumber⟩
      obtain ⟨small, large, -, hn⟩ := hexNumber_iff_marks.mp hnumber
      refine ⟨UInt64.ofNat n, ofHex_eq_ok_iff.mpr ⟨small, large, ?_⟩⟩
      rwa [UInt64.toNat_ofNat_of_lt' (hlt.trans (by decide))]

/-- The largest pattern behind a mark and a sign is read, and read again. A text with a second mark
behind the one with the capital letter is refused. -/
theorem largest_pattern_read :
    (∃ small large, HexText (marks small large) " 0X+ffffFFFFffff " (2 ^ 48 - 1)) ∧
    ofHex (toHex 0xFFFFFFFFFFFF) = .ok 0xFFFFFFFFFFFF ∧
    ∀ small large n, HexText (marks small large) "0X0x1F" n → 2 ^ 64 ≤ n := by
  obtain ⟨hread, -, hagain, -⟩ := pattern_read_iff " 0X+ffffFFFFffff "
  obtain ⟨-, hrefused, -, -⟩ := pattern_read_iff "0X0x1F"
  have hlargest : ofHex " 0X+ffffFFFFffff " = .ok 0xFFFFFFFFFFFF := by decide +kernel
  exact ⟨(hread _).mp hlargest, (hagain _ hlargest).mpr (by decide),
    hrefused.mp (by decide +kernel)⟩

/-- A text with two marks is read although it is none of a pattern. So is a number of 49 bits, and
the text that is written of it is read as zero. -/
theorem more_than_patterns_read :
    (ofHex "0x0x1F" = .ok 0x1F ∧ ∀ n, ¬ HexNumber "0x0x1F" n) ∧
    (ofHex "1000000000000" = .ok 0x1000000000000 ∧
      ofHex (toHex 0x1000000000000) = .ok 0 ∧ ∀ n < 2 ^ 48, ¬ HexNumber "1000000000000" n) := by
  refine ⟨⟨by decide +kernel, ?_⟩, by decide +kernel, by decide +kernel, ?_⟩
  · intro n hn
    have htext : ListingRow.dropMark (Text.trimChars "0x0x1F".toList) = "0x1F".toList := by
      decide +kernel
    rw [Text.hexNumber_iff, htext] at hn
    exact (Text.mark_not_mem_denotes hn).1 (by decide +kernel)
  · intro n hlt hn
    have hread : Text.readNumeral? 16 (2 ^ 64)
        (ListingRow.dropMark (Text.trimChars "1000000000000".toList)) = some (2 ^ 48) := by
      decide +kernel
    have hvalue := ((Text.readNumeral?_eq_some_iff (by decide) (by decide)).mp hread).1
    rw [Text.hexNumber_iff] at hn
    exact absurd (hn.unique hvalue) hlt.ne

end Float48
end SicDebugger
