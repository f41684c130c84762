import SicDebugger.Json.Record
import SicDebugger.Json.Writer
import SicDebugger.Proofs.Numerals

/-!
# Reading back what is written

The text that is written for a value is read as that value, provided the value has a text at all: no
part of it is unreadable, and the fraction of a number has digits. The reader's fuel is enough where
it is no less than the text is long, since every value takes one character at least.
-/

namespace SicDebugger

/-- Every fraction has digits, and only digits. -/
def Number.WellFormed (n : Number) : Prop := ∀ ds, n.fraction = some ds → ds ≠ [] ∧ ∀ d ∈ ds, d < 10

namespace Json

mutual
/-- The value has a text of its own, and a reader of records keeps every part of it: no part is
unreadable, numbers are in range, and containers are nested at most `depth` deep. -/
def Writable (depth : Nat) : Json → Prop
  | .null | .bool _ | .string _ => True
  | .number n => n.WellFormed ∧ n.toBinary64?.isSome
  | .unreadable => False
  | .array items => 0 < depth ∧ WritableItems (depth - 1) items
  | .object members => 0 < depth ∧ WritableMembers (depth - 1) members

/-- Every item is writable. -/
def WritableItems (depth : Nat) : List Json → Prop
  | [] => True
  | j :: r => Writable depth j ∧ WritableItems depth r

/-- Every member is writable. -/
def WritableMembers (depth : Nat) : List (String × Json) → Prop
  | [] => True
  | (_, j) :: r => Writable depth j ∧ WritableMembers depth r
end

mutual
/-- A writable value is kept. -/
theorem Writable.keepable {depth : Nat} : ∀ {j : Json}, j.Writable depth → j.keepable depth = true
  | .null, _ | .bool _, _ | .string _, _ => rfl
  | .number _, h => h.2
  | .array items, h => by
    simp only [Json.keepable, Bool.and_eq_true, decide_eq_true_eq]
    exact ⟨h.1, keepableItems_of_writable h.2⟩
  | .object members, h => by
    simp only [Json.keepable, Bool.and_eq_true, decide_eq_true_eq]
    exact ⟨h.1, keepableMembers_of_writable h.2⟩

/-- Writable items are kept. -/
lemma keepableItems_of_writable {depth : Nat} :
    ∀ {items : List Json}, WritableItems depth items → keepableItems depth items = true
  | [], _ => rfl
  | _ :: _, h => by
    rw [keepableItems, Bool.and_eq_true]
    exact ⟨h.1.keepable, keepableItems_of_writable h.2⟩

/-- Writable members are kept. -/
theorem keepableMembers_of_writable {depth : Nat} :
    ∀ {members : List (String × Json)}, WritableMembers depth members →
      keepableMembers depth members = true
  | [], _ => rfl
  | _ :: _, h => by
    rw [keepableMembers, Bool.and_eq_true]
    exact ⟨h.1.keepable, keepableMembers_of_writable h.2⟩
end

section

variable {depth fuel n : Nat} {c : Char} {s t rest : List Char}

lemma writableItems_iff {items : List Json} :
    WritableItems depth items ↔ ∀ j ∈ items, j.Writable depth := by
  induction items with
  | nil => simp [WritableItems]
  | cons j r ih => simp [WritableItems, ih]

lemma writableMembers_iff {members : List (String × Json)} :
    WritableMembers depth members ↔ ∀ m ∈ members, m.2.Writable depth := by
  induction members with
  | nil => simp [WritableMembers]
  | cons m r ih => simp [WritableMembers, ih]

/-! ## Digits -/

/-- A text does not go on with a digit. -/
def NoDigit (s : List Char) : Prop := ∀ c ∈ s.head?, c.isDigit = false

/-- A text that follows a value: its end, or what stands between values. -/
def Stops (s : List Char) : Prop := ∀ c ∈ s.head?, c = ',' ∨ c = ']' ∨ c = '\x7d'

lemma Stops.noDigit (h : Stops s) : NoDigit s := by
  intro c hc
  rcases h c hc with rfl | rfl | rfl <;> rfl

lemma stops_nil : Stops [] := nofun

lemma stops_cons (h : c = ',' ∨ c = ']' ∨ c = '\x7d') : Stops (c :: s) := by
  rintro _ ⟨⟩
  exact h

/-- Digits are read up to the first character that is none. -/
lemma readDigits?_append (hs : s ≠ []) (hdigits : ∀ c ∈ s, c.isDigit = true) (hrest : NoDigit rest) :
    readDigits? (s ++ rest) = some (s.map fun c => c.toNat - '0'.toNat, rest) := by
  have hstop : rest.takeWhile Char.isDigit = [] ∧ rest.dropWhile Char.isDigit = rest := by
    cases rest with
    | nil => simp
    | cons c r => simp [hrest c rfl]
  have htake : (s ++ rest).takeWhile Char.isDigit = s := by
    rw [List.takeWhile_append_of_pos hdigits, hstop.1, List.append_nil]
  have hdrop : (s ++ rest).dropWhile Char.isDigit = rest := by
    rw [List.dropWhile_append_of_pos hdigits, hstop.2]
  unfold readDigits?
  simp only [htake, hdrop]
  rw [if_neg (by simpa using hs)]

lemma isDigit_of_mem_toDigits (h : c ∈ Nat.toDigits 10 n) : c.isDigit = true :=
  Nat.isDigit_of_mem_toDigits (by decide) (by decide) h

/-- A printed number starts with a digit. -/
lemma exists_toDigits_eq_cons (n : Nat) :
    ∃ c r, Nat.toDigits 10 n = c :: r ∧ c.isDigit = true := by
  obtain ⟨c, r, h⟩ := List.exists_cons_of_ne_nil (Nat.toDigits_ne_nil (b := 10) (n := n))
  exact ⟨c, r, h, isDigit_of_mem_toDigits (n := n) (h ▸ List.mem_cons_self)⟩

/-- The printed digits of a number are read, and their value is the number. -/
lemma readDigits?_toDigits (n : Nat) (hrest : NoDigit rest) :
    ∃ ds : List Nat, readDigits? (Nat.toDigits 10 n ++ rest) = some (ds, rest) ∧
      ds.foldl (fun n d => n * 10 + d) 0 = n := by
  refine ⟨_, readDigits?_append Nat.toDigits_ne_nil (fun c => isDigit_of_mem_toDigits) hrest, ?_⟩
  have hvalue := Nat.ofDigitChars_ten_toDigits (n := n)
  rw [Nat.ofDigitChars] at hvalue
  rw [List.foldl_map]
  simpa only [Nat.mul_comm] using hvalue

/-- Only zero is printed with a zero in front. -/
lemma toDigits_head (hn : n ≠ 0) : ∃ c r, Nat.toDigits 10 n = c :: r ∧ c ≠ '0' := by
  induction n using Nat.strongRecOn with
  | ind n ih =>
    by_cases hlt : n < 10
    · refine ⟨n.digitChar, [], Nat.toDigits_of_lt_base hlt, ?_⟩
      have hdigits : ∀ n < 10, n ≠ 0 → n.digitChar ≠ '0' := by decide
      exact hdigits n hlt hn
    · obtain ⟨c, r, h, hc⟩ := ih (n / 10) (by omega) (by omega)
      refine ⟨c, r ++ [(n % 10).digitChar], ?_, hc⟩
      rw [Nat.toDigits_of_base_le (by decide) (by omega), h, List.cons_append]

/-! ## Numbers -/

/-- The characters of a fraction are read as it. -/
lemma readFraction?_write {fraction : Option (List Nat)}
    (h : ∀ ds, fraction = some ds → ds ≠ [] ∧ ∀ d ∈ ds, d < 10) (hrest : NoDigit rest)
    (hpoint : ∀ c ∈ rest.head?, c ≠ '.') :
    readFraction? (writeFraction fraction ++ rest) = some (fraction, rest) := by
  cases fraction with
  | none =>
    unfold writeFraction readFraction?
    rw [List.nil_append]
    split
    · exact absurd rfl (hpoint '.' rfl)
    · rfl
  | some ds =>
    obtain ⟨hne, hlt⟩ := h ds rfl
    have hdigit : ∀ d < 10, (Char.ofNat ('0'.toNat + d)).isDigit = true ∧
        (Char.ofNat ('0'.toNat + d)).toNat - '0'.toNat = d := by decide
    have hread := readDigits?_append (s := ds.map fun d => Char.ofNat ('0'.toNat + d))
      (by simpa using hne)
      (by simp only [List.mem_map]; rintro _ ⟨d, hd, rfl⟩; exact (hdigit d (hlt d hd)).1) hrest
    have hmap : (ds.map fun d => Char.ofNat ('0'.toNat + d)).map (fun c => c.toNat - '0'.toNat) =
        ds := by
      rw [List.map_map]
      exact (List.map_congr_left fun d hd => (hdigit d (hlt d hd)).2).trans (List.map_id ds)
    rw [hmap] at hread
    simp only [writeFraction, List.cons_append, readFraction?, hread, Option.map_some]

/-- The characters of an exponent are read as it. -/
lemma readExponent?_write (exponent : Option Int) (hrest : NoDigit rest)
    (hletter : ∀ c ∈ rest.head?, c ≠ 'e' ∧ c ≠ 'E') :
    readExponent? (writeExponent exponent ++ rest) = some (exponent, rest) := by
  cases exponent with
  | none =>
    cases rest with
    | nil => rfl
    | cons c r => simp [writeExponent, readExponent?, hletter c rfl]
  | some e =>
    obtain ⟨ds, hread, hvalue⟩ := readDigits?_toDigits e.natAbs hrest
    by_cases he : e < 0
    · simp only [writeExponent, if_pos he, List.cons_append, List.nil_append, readExponent?,
        true_or, ↓reduceIte, hread, hvalue, Option.map_some]
      rw [show -(e.natAbs : Int) = e by omega]
    · -- without a sign the first digit follows the letter
      obtain ⟨c, r, hc, hdigit⟩ := exists_toDigits_eq_cons e.natAbs
      have hminus : c ≠ '-' := by rintro rfl; exact absurd hdigit (by decide)
      have hplus : c ≠ '+' := by rintro rfl; exact absurd hdigit (by decide)
      rw [hc, List.cons_append] at hread
      simp only [writeExponent, if_neg he, hc, List.cons_append, List.nil_append, readExponent?,
        true_or, ↓reduceIte]
      split
      · rename_i h
        exact absurd (List.cons.inj h).1 hminus
      · rename_i h
        exact absurd (List.cons.inj h).1 hplus
      · simp only [hread, hvalue, Option.map_some, Bool.false_eq_true, ↓reduceIte]
        rw [show (e.natAbs : Int) = e by omega]

/-- The digits of an integer part are read as it. -/
lemma readWhole?_toDigits (n : Nat) (hrest : NoDigit rest) :
    readWhole? (Nat.toDigits 10 n ++ rest) = some (n, rest) := by
  by_cases hn : n = 0
  · subst hn
    rfl
  · obtain ⟨c, r, hc, hzero⟩ := toDigits_head hn
    obtain ⟨ds, hread, hvalue⟩ := readDigits?_toDigits n hrest
    rw [hc, List.cons_append] at hread ⊢
    unfold readWhole?
    split
    · rename_i h
      exact absurd (List.cons.inj h).1 hzero
    · simp only [hread, Option.map_some, hvalue]

/-- What follows the integer part does not go on with a digit. -/
lemma noDigit_behind_whole (n : Number) (hrest : Stops rest) :
    NoDigit (writeFraction n.fraction ++ (writeExponent n.exponent ++ rest)) := by
  cases hf : n.fraction with
  | some ds => rintro _ ⟨⟩; rfl
  | none =>
    cases he : n.exponent with
    | some e => rintro _ ⟨⟩; rfl
    | none => exact hrest.noDigit

/-- A number is read up to the end of its text. -/
lemma readNumber?_write {n : Number} (h : n.WellFormed) (hrest : Stops rest) :
    readNumber? (writeNumber n ++ rest) = some (n, rest) := by
  have hnodigit := noDigit_behind_whole n hrest
  generalize htail : writeFraction n.fraction ++ (writeExponent n.exponent ++ rest) = tail
    at hnodigit
  have hsign : readMinus (writeNumber n ++ rest) =
      (n.negative, Nat.toDigits 10 n.whole ++ tail) := by
    unfold writeNumber
    simp only [List.append_assoc, htail]
    cases n.negative
    · obtain ⟨c, r, hc, hdigit⟩ := exists_toDigits_eq_cons n.whole
      rw [hc, if_neg (by simp), List.nil_append, List.cons_append]
      unfold readMinus
      split
      · rename_i h
        cases (List.cons.inj h).1
        exact absurd hdigit (by decide)
      · rfl
    · rfl
  have hexponent := readExponent?_write n.exponent hrest.noDigit
    (by intro c hc; rcases hrest c hc with rfl | rfl | rfl <;> decide)
  have hfraction : readFraction? tail = some (n.fraction, writeExponent n.exponent ++ rest) := by
    rw [← htail]
    refine readFraction?_write h ?_ ?_
    all_goals
      cases he : n.exponent with
      | some e => rintro _ ⟨⟩; decide
      | none => intro c hc; rcases hrest c hc with rfl | rfl | rfl <;> decide
  simp only [readNumber?, hsign, readWhole?_toDigits n.whole hnodigit, hfraction, hexponent]

/-! ## Texts -/

/-- Four printed digits are read as the number. -/
lemma readUnit?_hexFixed (rest : List Char) (hn : n < UInt16.size) :
    readUnit? (Text.hexFixed 4 n ++ rest) = some (n, rest) := by
  have hsize : UInt16.size = 65536 := rfl
  have hdigit := fun m => Text.digitValue?_hexDigit (n := m % 16) (Nat.mod_lt m (by decide))
  simp only [Text.hexFixed, List.nil_append, List.cons_append, readUnit?, hdigit, Option.some.injEq,
    Prod.mk.injEq, and_true]
  omega

/-- A character is read from its place in a text. -/
lemma readString?_escape (fuel : Nat) (seen : List Char) (c : Char) (s : List Char) :
    readString? (fuel + 1) (some seen) (escape c ++ s) = readString? fuel (some (c :: seen)) s := by
  unfold escape
  split_ifs with hquote hslash hline hreturn htab hcontrol
  case pos => subst hquote; rfl
  case pos => subst hslash; rfl
  case pos => subst hline; rfl
  case pos => subst hreturn; rfl
  case pos => subst htab; rfl
  case pos =>
    have hread := readUnit?_hexFixed (n := c.toNat) s
      (hcontrol.trans (by decide))
    simp only [List.cons_append, readString?, hread]
    rw [if_neg (by omega), if_neg (by omega), Char.ofNat_toNat]
    rfl
  case neg =>
    -- every other character stands for itself
    rw [List.cons_append, List.nil_append, readString?.eq_def]
    split
    · contradiction
    · cases ‹_ + 1 = _ + 1›
      split <;> simp_all

/-- A text is read up to its closing quote. -/
lemma readString?_write (seen : List Char) (s : List Char) (hfuel : s.length < fuel) :
    readString? fuel (some seen) (s.flatMap escape ++ '"' :: rest) =
      some (some (seen.reverse ++ s), rest) := by
  induction s generalizing fuel seen with
  | nil =>
    obtain ⟨fuel, rfl⟩ := Nat.exists_eq_add_one.mpr hfuel
    simp [readString?]
  | cons c r ih =>
    obtain ⟨fuel, rfl⟩ := Nat.exists_eq_add_one.mpr (Nat.zero_lt_of_lt hfuel)
    rw [List.flatMap_cons, List.append_assoc, readString?_escape, ih (c :: seen) (by simpa using hfuel)]
    simp

lemma length_le_length_flatMap_escape (s : List Char) : s.length ≤ (s.flatMap escape).length := by
  induction s with
  | nil => simp
  | cons c r ih =>
    have hpos : 0 < (escape c).length := by
      unfold escape
      split_ifs <;> simp
    simp only [List.flatMap_cons, List.length_append, List.length_cons]
    omega

/-- Behind its opening quote a written text is read. -/
lemma readString?_writeString (s : String) (rest : List Char) :
    ∃ r, writeString s ++ rest = '"' :: r ∧
      readString? (r.length + 1) (some []) r = some (some s.toList, rest) := by
  refine ⟨s.toList.flatMap escape ++ '"' :: rest, by simp [writeString], ?_⟩
  have := length_le_length_flatMap_escape s.toList
  exact readString?_write [] s.toList (by simp only [List.length_append]; omega)

/-! ## Values -/

lemma skipBlanks_cons (h : c ≠ ' ' ∧ c ≠ '\t' ∧ c ≠ '\n' ∧ c ≠ '\r') :
    skipBlanks (c :: s) = c :: s := by
  simp [skipBlanks, h]

/-- A number starts with its sign or a digit. -/
lemma writeNumber_head (n : Number) :
    ∃ c r, writeNumber n = c :: r ∧ (c = '-' ∨ c.isDigit = true) := by
  unfold writeNumber
  cases n.negative
  · obtain ⟨c, r, hc, hdigit⟩ := exists_toDigits_eq_cons n.whole
    exact ⟨c, _, by rw [hc]; rfl, .inr hdigit⟩
  · exact ⟨'-', _, rfl, .inl rfl⟩

lemma ne_of_sign_or_digit (h : c = '-' ∨ c.isDigit = true) {d : Char}
    (hd : d ≠ '-' ∧ d.isDigit = false) : c ≠ d := by
  rintro rfl
  simp_all

/-- A written value starts with a character that is neither a blank nor a closing bracket. -/
lemma write_head {j : Json} (h : j.Writable depth) :
    ∃ c r, write j = c :: r ∧ (c ≠ ' ' ∧ c ≠ '\t' ∧ c ≠ '\n' ∧ c ≠ '\r') ∧ c ≠ ']' := by
  cases j with
  | null => exact ⟨'n', _, rfl, by decide, by decide⟩
  | bool b => cases b <;> exact ⟨_, _, rfl, by decide, by decide⟩
  | number n =>
    obtain ⟨c, r, hn, hc⟩ := writeNumber_head n
    have hne := fun d => ne_of_sign_or_digit (d := d) hc
    exact ⟨c, r, hn, ⟨hne ' ' (by decide), hne '\t' (by decide), hne '\n' (by decide),
      hne '\r' (by decide)⟩, hne ']' (by decide)⟩
  | string s => exact ⟨'"', _, rfl, by decide, by decide⟩
  | array items => exact ⟨'[', _, rfl, by decide, by decide⟩
  | object members => exact ⟨'\x7b', _, rfl, by decide, by decide⟩
  | unreadable => exact h.elim

lemma length_write_pos {j : Json} (h : j.Writable depth) : 0 < (write j).length := by
  obtain ⟨c, r, hj, -⟩ := write_head h
  simp [hj]

/-- Items start as the first of them does. -/
lemma writeItems_head {items : List Json} (hne : items ≠ []) (h : WritableItems depth items) :
    ∃ c r, writeItems items = c :: r ∧ (c ≠ ' ' ∧ c ≠ '\t' ∧ c ≠ '\n' ∧ c ≠ '\r') ∧ c ≠ ']' := by
  match items with
  | [j] => exact write_head h.1
  | j :: k :: r =>
    obtain ⟨c, t, hj, hc⟩ := write_head h.1
    exact ⟨c, t ++ ',' :: writeItems (k :: r), by simp [writeItems, hj], hc⟩

/-- Members start with the quote of the first key. -/
lemma writeMembers_head (m : String × Json) (members : List (String × Json)) :
    ∃ r, writeMembers (m :: members) = '"' :: r := by
  cases members <;> exact ⟨_, rfl⟩

/-- A text that starts as a number does is read as one. -/
lemma readValue?_number {r : List Char} (hc : c = '-' ∨ c.isDigit = true) :
    readValue? (fuel + 1) (c :: r) = (readNumber? (c :: r)).map fun (n, r) => (.number n, r) := by
  have hne := fun d => ne_of_sign_or_digit (d := d) hc
  rw [readValue?, skipBlanks_cons ⟨hne ' ' (by decide), hne '\t' (by decide), hne '\n' (by decide),
    hne '\r' (by decide)⟩]
  split
  case h_7 => rfl
  all_goals
    rename_i h
    exact absurd (List.cons.inj h).1 (hne _ (by decide))

-- The recursion is on the value; one unit of fuel for each character of its text is enough.
mutual
/-- The text of a writable value is read as it. -/
theorem readValue?_write {depth : Nat} : ∀ {j : Json} (fuel : Nat) (rest : List Char),
    j.Writable depth → (write j).length ≤ fuel + 1 → Stops rest →
      readValue? (fuel + 1) (write j ++ rest) = some (j, rest)
  | .null, _, _, _, _, _ | .bool true, _, _, _, _, _ | .bool false, _, _, _, _, _
  | .array [], _, _, _, _, _ | .object [], _, _, _, _, _ => by
    simp [write, writeItems, writeMembers, readValue?, skipBlanks_cons]
  | .number n, fuel, rest, h, _, hrest => by
    obtain ⟨c, r, hn, hc⟩ := writeNumber_head n
    rw [write, hn, List.cons_append, readValue?_number hc, ← List.cons_append, ← hn,
      readNumber?_write h.1 hrest, Option.map_some]
  | .string s, fuel, rest, _, _, _ => by
    obtain ⟨r, hs, hread⟩ := readString?_writeString s rest
    rw [write, hs, readValue?, skipBlanks_cons (by decide)]
    simp only [hread, Option.map_some, ofChars, String.ofList_toList]
  | .array (j :: items), fuel, rest, h, hfuel, _ => by
    -- behind the bracket an item starts, so the array is not the empty one
    obtain ⟨c, r, hitems, hblank, hbracket⟩ := writeItems_head (List.cons_ne_nil j items) h.2
    simp only [write, List.length_cons, List.length_append, List.length_nil] at hfuel
    obtain ⟨fuel, rfl⟩ := Nat.exists_eq_add_one.mpr (show 0 < fuel by omega)
    have hread := readItems?_write fuel rest (List.cons_ne_nil j items) h.2
      (by omega)
    rw [hitems, List.cons_append] at hread
    rw [write, hitems]
    simp only [List.cons_append, List.append_assoc, List.nil_append]
    rw [readValue?, skipBlanks_cons (by decide)]
    simp only [skipBlanks_cons hblank]
    split
    · rename_i h
      exact absurd (List.cons.inj h).1 hbracket
    · rw [hread, Option.map_some]
  | .object (m :: members), fuel, rest, h, hfuel, _ => by
    -- and here a key, whose quote is no closing brace
    simp only [write, List.length_cons, List.length_append, List.length_nil] at hfuel
    obtain ⟨fuel, rfl⟩ := Nat.exists_eq_add_one.mpr (show 0 < fuel by omega)
    have hread := readMembers?_write fuel rest (List.cons_ne_nil m members) h.2
      (by omega)
    obtain ⟨r, hmembers⟩ := writeMembers_head m members
    rw [hmembers, List.cons_append] at hread
    rw [write, hmembers]
    simp only [List.cons_append, List.append_assoc, List.nil_append]
    rw [readValue?, skipBlanks_cons (by decide)]
    simp only [skipBlanks_cons (c := '"') (by decide)]
    split
    · rename_i h
      exact absurd (List.cons.inj h).1 (by decide)
    · rw [hread]
      rfl

/-- The text of items is read as them, behind their closing bracket. -/
theorem readItems?_write {depth : Nat} : ∀ {items : List Json} (fuel : Nat) (rest : List Char),
    items ≠ [] → WritableItems depth items → (writeItems items).length ≤ fuel →
      readItems? (fuel + 1) (writeItems items ++ ']' :: rest) = some (items, rest)
  | [j], fuel, rest, _, h, hfuel => by
    rw [writeItems] at hfuel ⊢
    obtain ⟨fuel, rfl⟩ := Nat.exists_eq_add_one.mpr ((length_write_pos h.1).trans_le hfuel)
    rw [readItems?, readValue?_write _ _ h.1 hfuel (stops_cons (by simp))]
    simp [skipBlanks_cons]
  | j :: k :: r, fuel, rest, _, h, hfuel => by
    have hpos := length_write_pos h.1
    simp only [writeItems, List.length_cons, List.length_append] at hfuel
    obtain ⟨fuel, rfl⟩ := Nat.exists_eq_add_one.mpr (show 0 < fuel by omega)
    have hitems := readItems?_write fuel rest (List.cons_ne_nil k r) h.2
      (by omega)
    simp only [writeItems, List.append_assoc, List.cons_append]
    rw [readItems?, readValue?_write _ _ h.1 (by omega) (stops_cons (by simp))]
    simp [skipBlanks_cons, hitems]

/-- The text of members is read as them, behind their closing brace. -/
theorem readMembers?_write {depth : Nat} :
    ∀ {members : List (String × Json)} (fuel : Nat) (rest : List Char),
      members ≠ [] → WritableMembers depth members → (writeMembers members).length ≤ fuel →
        readMembers? (fuel + 1) (writeMembers members ++ '\x7d' :: rest) = some (some members, rest)
  | [(key, j)], fuel, rest, _, h, hfuel => by
    rw [writeMembers, List.length_append, List.length_cons] at hfuel
    have hpos := length_write_pos h.1
    obtain ⟨fuel, rfl⟩ := Nat.exists_eq_add_one.mpr (show 0 < fuel by omega)
    obtain ⟨r, hkey, hread⟩ := readString?_writeString key
      (':' :: (write j ++ '\x7d' :: rest))
    rw [writeMembers, List.append_assoc, List.cons_append, hkey, readMembers?,
      skipBlanks_cons (by decide)]
    simp only [hread, skipBlanks_cons (c := ':') (by decide),
      readValue?_write fuel _ h.1 (by omega) (stops_cons (c := '\x7d') (by simp)),
      skipBlanks_cons (c := '\x7d') (by decide)]
    simp
  | (key, j) :: m :: members, fuel, rest, _, h, hfuel => by
    have hpos := length_write_pos h.1
    simp only [writeMembers, List.length_cons, List.length_append] at hfuel
    obtain ⟨fuel, rfl⟩ := Nat.exists_eq_add_one.mpr (show 0 < fuel by omega)
    have hmembers := readMembers?_write fuel rest (List.cons_ne_nil m members)
      h.2 (by omega)
    obtain ⟨r, hkey, hread⟩ := readString?_writeString key
      (':' :: (write j ++ ',' :: (writeMembers (m :: members) ++ '\x7d' :: rest)))
    simp only [writeMembers, List.append_assoc, List.cons_append]
    rw [hkey, readMembers?, skipBlanks_cons (by decide)]
    simp only [hread, skipBlanks_cons (c := ':') (by decide),
      readValue?_write fuel _ h.1 (by omega) (stops_cons (c := ',') (by simp)),
      skipBlanks_cons (c := ',') (by decide), hmembers]
    simp
end

/-- A writable value is read back from its text. -/
theorem ofText?_toText {j : Json} (h : j.Writable depth) : ofText? j.toText = some j := by
  have hread := readValue?_write (write j).length [] h (Nat.le_add_right ..) stops_nil
  rw [List.append_nil] at hread
  simp only [ofText?, toText, String.toList_ofList, hread]
  rfl

end

end Json
end SicDebugger
