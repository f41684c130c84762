import SicDebugger.Proofs.Codec
import SicDebugger.Proofs.RegisterText
import SicDebugger.View.Message

/-!
# Messages and requests are read back

What the debugger writes for a message to a view is read as this message, and what a view writes for
a request as this request, where the delay that it asks for is read back. Every part has its place:
rows, diagnostics and variables among their lists, the buckets under their keys, whatever these are.
-/

namespace SicDebugger

open Json

variable {depth : Nat}

/-! ## Parts of messages -/

lemma ListingRow.writable_toJson (r : ListingRow) : Writable (depth + 1) r.toJson :=
  writable_object (by simp)

lemma ListingRow.ofJson?_toJson (r : ListingRow) : ofJson? r.toJson = some r := by
  simp [ofJson?, toJson, record?, Record.nullable?, Record.defaulted?, Record.slot?]

lemma Diagnostic.writable_toJson (d : Diagnostic) : Writable (depth + 1) d.toJson := by
  refine writable_object ?_
  cases d.length <;> simp

lemma Diagnostic.ofJson?_toJson (kept : Bool) (d : Diagnostic) : ofJson? kept d.toJson = some d := by
  obtain ⟨row, col, length, message, origin⟩ := d
  cases length <;> cases origin <;>
    simp [ofJson?, toJson, record?, Record.required?, Record.defaulted?, Record.slot?, choice?,
      DiagnosticOrigin.word, DiagnosticOrigin.ofWord?]

lemma RegisterSnapshot.writable_toJson (r : RegisterSnapshot) : Writable (depth + 1) r.toJson :=
  writable_object (by simp)

lemma RegisterSnapshot.ofJson?_toJson (r : RegisterSnapshot) : ofJson? r.toJson = some r := by
  simp [ofJson?, toJson, record?, Record.defaulted?, Record.slot?, floatOfJson?]

namespace WatchView

lemma writable_bytesToJson (bytes : List UInt8) : Writable (depth + 1) (bytesToJson bytes) :=
  writable_ofList (by simp)

lemma list?_bytesToJson (bytes : List UInt8) : list? uint8? (bytesToJson bytes) = some bytes :=
  list?_ofList (by simp)

lemma writable_toJson (v : WatchView) : Writable (depth + 2) v.toJson := by
  refine writable_object ?_
  have hvalue : Writable (depth + 1) (.ofOption bytesToJson v.value) :=
    writable_ofOption fun bytes _ => writable_bytesToJson bytes
  simp [hvalue]

lemma ofJson?_toJson (v : WatchView) : ofJson? v.toJson = some v := by
  have hvalue : optional? (list? uint8?) (.ofOption bytesToJson v.value) = some v.value :=
    optional?_ofOption (by simp [bytesToJson, ofList]) fun bytes _ => list?_bytesToJson bytes
  simp [ofJson?, toJson, record?, Record.required?, Record.optional?, Record.slot?, hvalue]

end WatchView

namespace ViewMessage

/-- The row at the program counter, if there is one, is a number of 64 bits. -/
def ListingFits (l : ListingView) : Prop := ∀ row ∈ l.pcRow, row < UInt64.size

/-- Whether the numbers of a message are those that it has room for: the rows at the program counter
have 64 bits. All other numbers have their width by their type. -/
def Fits : ViewMessage → Prop
  | listings ls _ => ∀ l ∈ ls, ListingFits l
  | _ => True

lemma writable_listingToJson {l : ListingView} (h : ListingFits l) :
    Writable (depth + 3) (listingToJson l) := by
  refine writable_object ?_
  have hrows : Writable (depth + 1 + 1) (.ofList ListingRow.toJson l.rows) :=
    writable_ofList fun r _ => r.writable_toJson
  have hbreakpoints : Writable (depth + 1 + 1)
      (.ofList (fun n : UInt64 => .ofNat n.toNat) l.breakpoints) := writable_ofList (by simp)
  have hpc : Writable (depth + 2) (.ofOption .ofNat l.pcRow) :=
    writable_ofOption fun row hrow => writable_ofNat (h row hrow)
  simp [hrows, hbreakpoints, hpc]

lemma listingOfJson?_listingToJson {l : ListingView} (h : ListingFits l) :
    listingOfJson? (listingToJson l) = some l := by
  have hrows : list? ListingRow.ofJson? (.ofList ListingRow.toJson l.rows) = some l.rows :=
    list?_ofList fun r _ => r.ofJson?_toJson
  have hbreakpoints : list? uint64? (.ofList (fun n : UInt64 => .ofNat n.toNat) l.breakpoints) =
      some l.breakpoints := list?_ofList (by simp)
  have hpc : optional? (nat? UInt64.size) (.ofOption .ofNat l.pcRow) = some l.pcRow :=
    optional?_ofOption (by simp [ofNat]) fun row hrow => nat?_ofNat (h row hrow)
  simp [listingOfJson?, listingToJson, record?, Record.required?, Record.optional?, Record.slot?,
    hrows, hbreakpoints, hpc]

lemma writable_bucketsToJson (b : Std.ExtTreeMap String (List Diagnostic)) :
    Writable (depth + 3) (bucketsToJson b) := by
  refine writable_object ?_
  simp only [List.mem_map]
  rintro _ ⟨m, -, rfl⟩
  exact writable_ofList fun d _ => d.writable_toJson

/-- A map is found again by inserting what it holds. -/
lemma ofList_toList (b : Std.ExtTreeMap String (List Diagnostic)) :
    Std.ExtTreeMap.ofList b.toList compare = b := by
  refine Std.ExtTreeMap.ext_getElem? fun key => ?_
  cases hkey : b[key]? with
  | some ds =>
    exact Std.ExtTreeMap.getElem?_ofList_of_mem (Std.ReflCmp.compare_self)
      Std.ExtTreeMap.distinct_keys_toList (Std.ExtTreeMap.mem_toList_iff_getElem?_eq_some.mpr hkey)
  | none =>
    refine Std.ExtTreeMap.getElem?_ofList_of_contains_eq_false ?_
    rw [Std.ExtTreeMap.map_fst_toList_eq_keys, List.contains_eq_mem, decide_eq_false_iff_not,
      Std.ExtTreeMap.mem_keys]
    simpa using hkey

lemma bucketsOfJson?_bucketsToJson (b : Std.ExtTreeMap String (List Diagnostic)) :
    bucketsOfJson? (bucketsToJson b) = some b := by
  have hmembers : (bucketsToJson b).members? (list? (Diagnostic.ofJson? true)) = some b.toList := by
    refine Eq.trans (b := some (b.toList.map id)) (mapM_map_eq_some fun m _ => ?_)
      (congrArg some (List.map_id b.toList))
    have hlist : list? (Diagnostic.ofJson? true) (.ofList Diagnostic.toJson m.2) = some m.2 :=
      list?_ofList fun d _ => d.ofJson?_toJson true
    simp only [hlist]
    rfl
  rw [bucketsOfJson?, hmembers, Option.map_some]
  exact congrArg some (Std.ExtTreeMap.ofList_eq_foldl.symm.trans (ofList_toList b))

end ViewMessage

/-! ## Tagged records -/

/-- A tag in front of members that are no tags is split off. -/
lemma tagged?_tagged {tag : String} {members : List (String × Json)}
    (h : ∀ m ∈ members, m.1 ≠ "type") :
    (ViewRequest.tagged tag members).tagged? = some (tag, .object members) := by
  have hnone : members.filter (fun m => m.1 = "type") = [] :=
    List.filter_eq_nil_iff.mpr (by simpa using h)
  have hall : members.filter (fun m => m.1 ≠ "type") = members :=
    List.filter_eq_self.mpr (by simpa using h)
  simp only [ViewRequest.tagged, tagged?, List.filter_cons, decide_true, ↓reduceIte, hnone, ne_eq,
    not_true_eq_false, decide_false, Bool.false_eq_true]
  simpa using hall

/-- A reader of what belongs to a tag is given the tag and the members behind it. -/
lemma bind_tagged?_tagged {α : Type} {tag : String} {members : List (String × Json)}
    {f : String × Json → Option α} (h : ∀ m ∈ members, m.1 ≠ "type") :
    (ViewRequest.tagged tag members).tagged?.bind f = f (tag, .object members) := by
  rw [tagged?_tagged h, Option.bind_some]

lemma writable_tagged {tag : String} {members : List (String × Json)}
    (h : ∀ m ∈ members, m.2.Writable depth) :
    Writable (depth + 1) (ViewRequest.tagged tag members) := by
  refine writable_object ?_
  simpa using h

namespace ViewMessage

lemma writable_toJson {m : ViewMessage} (h : m.Fits) : Writable 127 m.toJson := by
  cases m with
  | registers r hex changed =>
    have hregisters : Writable 126 (.ofOption RegisterSnapshot.toJson r) :=
      writable_ofOption fun r _ => r.writable_toJson
    have hhex : Writable 126 (.ofOption .string hex) := writable_ofOption (by simp)
    exact writable_tagged (by simp [hregisters, hhex, RegisterSet.toJson])
  | listings ls active =>
    have hlistings : Writable 126 (.ofList listingToJson ls) :=
      writable_ofList fun l hl => writable_listingToJson (h l hl)
    have hactive : Writable 126 (.ofOption .string active) := writable_ofOption (by simp)
    exact writable_tagged (by simp [hlistings, hactive])
  | watches ws =>
    have hwatches : Writable 126 (.ofList WatchView.toJson ws) :=
      writable_ofList fun w _ => w.writable_toJson
    exact writable_tagged (by simp [hwatches])
  | memory first last values =>
    have hvalues : Writable 126 (WatchView.bytesToJson values) :=
      WatchView.writable_bytesToJson values
    exact writable_tagged (by simp [hvalues])
  | errors buckets =>
    have hbuckets : Writable 126 (bucketsToJson buckets) := writable_bucketsToJson buckets
    exact writable_tagged (by simp [hbuckets])
  | _ => exact writable_tagged (by simp)

/-- What is written behind its tag is read back. -/
lemma ofTagged?_toJson {m : ViewMessage} (h : m.Fits) :
    m.toJson.tagged?.bind (fun (tag, rest) => ofTagged? tag rest) = some m := by
  cases m with
  | state s =>
    rw [toJson, bind_tagged?_tagged (by simp)]
    simp [ofTagged?, record?, Record.required?, Record.slot?, choice?, ExecutionState.ofName?_name]
  | registers r hex changed =>
    have hregisters : optional? RegisterSnapshot.ofJson? (.ofOption RegisterSnapshot.toJson r) =
        some r := optional?_ofOption (by simp [RegisterSnapshot.toJson]) fun r _ => r.ofJson?_toJson
    have hhex : optional? string? (.ofOption .string hex) = some hex :=
      optional?_ofOption (by simp) (by simp)
    have hchanged : RegisterSet.ofJson? changed.toJson = some changed :=
      RegisterSet.ofText?_toText changed
    rw [toJson, bind_tagged?_tagged (by simp)]
    simp [ofTagged?, record?, Record.required?, Record.optional?, Record.slot?, hregisters, hhex,
      hchanged]
  | listings ls active =>
    have hlistings : list? listingOfJson? (.ofList listingToJson ls) = some ls :=
      list?_ofList fun l hl => listingOfJson?_listingToJson (h l hl)
    have hactive : optional? string? (.ofOption .string active) = some active :=
      optional?_ofOption (by simp) (by simp)
    rw [toJson, bind_tagged?_tagged (by simp)]
    simp [ofTagged?, record?, Record.required?, Record.optional?, Record.slot?, hlistings, hactive]
  | watches ws =>
    have hwatches : list? WatchView.ofJson? (.ofList WatchView.toJson ws) = some ws :=
      list?_ofList fun w _ => w.ofJson?_toJson
    rw [toJson, bind_tagged?_tagged (by simp)]
    simp [ofTagged?, record?, Record.required?, Record.slot?, hwatches]
  | memory first last values =>
    rw [toJson, bind_tagged?_tagged (by simp)]
    simp [ofTagged?, record?, Record.required?, Record.slot?, WatchView.list?_bytesToJson]
  | errors buckets =>
    rw [toJson, bind_tagged?_tagged (by simp)]
    simp [ofTagged?, record?, Record.required?, Record.slot?, bucketsOfJson?_bucketsToJson]
  | _ =>
    rw [toJson, bind_tagged?_tagged (by simp)]
    simp [ofTagged?, record?, Record.required?, Record.slot?]

/-- **A message is read back from its value.** -/
theorem ofJson?_toJson {m : ViewMessage} (h : m.Fits) : ofJson? m.toJson = some m := by
  rw [ofJson?, if_pos (writable_toJson h).keepable, ofTagged?_toJson h]

end ViewMessage

/-! ## Requests -/

/-- The digits of a printed number are digits, and there is one at least. -/
lemma digits_wellFormed (n : Nat) :
    ((Nat.toDigits 10 n).map fun c => c.toNat - '0'.toNat) ≠ [] ∧
      ∀ d ∈ (Nat.toDigits 10 n).map fun c => c.toNat - '0'.toNat, d < 10 := by
  refine ⟨by simp [Nat.toDigits_ne_nil], ?_⟩
  have hdigit : ∀ d < 10, d.digitChar.toNat - '0'.toNat < 10 := by decide
  simp only [List.mem_map]
  rintro _ ⟨c, hc, rfl⟩
  obtain ⟨d, hd, rfl⟩ := Text.mem_toDigits (by decide : 1 < 10) hc
  exact hdigit d hd

/-- The number of a double has digits in its fraction, and only digits. -/
lemma Number.wellFormed_ofBinary64 (x : Binary64) : (Number.ofBinary64 x).WellFormed := by
  obtain ⟨hne, hlt⟩ := digits_wellFormed x.shortest.1
  unfold ofBinary64
  generalize x.shortest = decimal at *
  obtain ⟨d, p⟩ := decimal
  dsimp only at *
  generalize (Nat.toDigits 10 d).map (fun c => c.toNat - '0'.toNat) = digits at *
  have hpos : 0 < digits.length := List.length_pos_iff.mpr hne
  intro ds hds
  split_ifs at hds with h₁ h₂ h₃ h₄
  all_goals obtain rfl := Option.some.inj hds
  · simp
  · refine ⟨List.ne_nil_of_length_pos ?_, fun d hd => hlt d (List.mem_of_mem_drop hd)⟩
    rw [List.length_drop]
    omega
  · refine ⟨by simp [hne], fun d hd => ?_⟩
    rcases List.mem_append.mp hd with hd | hd
    · rw [List.eq_of_mem_replicate hd]
      decide
    · exact hlt d hd
  · refine ⟨List.ne_nil_of_length_pos ?_, fun d hd => hlt d (List.mem_of_mem_drop hd)⟩
    rw [List.length_drop]
    omega

/-- A number alone is read back from its text, in range or not. -/
lemma Json.ofText?_number {n : Number} (h : n.WellFormed) :
    ofText? (Json.number n).toText = some (.number n) := by
  obtain ⟨c, r, hn, hc⟩ := writeNumber_head n
  have hread := readNumber?_write h stops_nil
  rw [List.append_nil, hn] at hread
  simp only [ofText?, toText, write, String.toList_ofList, hn, readValue?_number hc, hread]
  rfl

namespace ViewRequest

/-- What is written for a double is read as it. -/
def ReadsBack (x : Binary64) : Prop := (ofText? (doubleToJson x).toText).bind double? = some x

/-- A double that is read back has a number within range that stands for it. -/
lemma ReadsBack.number {x : Binary64} (h : ReadsBack x) :
    doubleToJson x = .number (.ofBinary64 x) ∧ (Number.ofBinary64 x).toBinary64? = some x := by
  unfold ReadsBack doubleToJson at *
  split at h
  · rw [ofText?_number (Number.wellFormed_ofBinary64 x)] at h
    exact ⟨if_pos ‹_›, h⟩
  · -- null is no double
    rw [show ofText? Json.null.toText = some .null from rfl] at h
    cases h

/-- The delay that a request asks for, if it asks for one, is read back. -/
def DelayReadsBack (r : ViewRequest) : Prop := ∀ ms, r = setDelay ms → ReadsBack ms

lemma writable_toJson {r : ViewRequest} (h : r.DelayReadsBack) : Writable 127 r.toJson := by
  cases r with
  | setDelay ms =>
    obtain ⟨hvalue, hread⟩ := (h ms rfl).number
    have hnumber : Writable 126 (doubleToJson ms) := by
      rw [hvalue]
      exact ⟨Number.wellFormed_ofBinary64 ms, by rw [hread]; rfl⟩
    exact writable_tagged (by simp [hnumber])
  | check texts names =>
    have htexts : ∀ texts, Writable 126 (.ofList .string texts) := fun texts =>
      writable_ofList (by simp)
    exact writable_tagged (by simp [htexts])
  | _ => exact writable_tagged (by simp)

/-- What is written behind its tag is read back. -/
lemma ofTagged?_toJson {r : ViewRequest} (h : r.DelayReadsBack) :
    r.toJson.tagged?.bind (fun (tag, rest) => ofTagged? tag rest) = some r := by
  cases r with
  | setDelay ms =>
    obtain ⟨hvalue, hread⟩ := (h ms rfl).number
    have hdouble : double? (doubleToJson ms) = some ms := by rw [hvalue]; exact hread
    rw [toJson, bind_tagged?_tagged (by simp)]
    simp [ofTagged?, record?, Record.required?, Record.slot?, hdouble]
  | check texts names =>
    have htexts : ∀ texts, list? string? (.ofList .string texts) = some texts := fun texts =>
      list?_ofList (by simp)
    rw [toJson, bind_tagged?_tagged (by simp)]
    simp [ofTagged?, record?, Record.required?, Record.slot?, htexts]
  | _ =>
    rw [toJson, bind_tagged?_tagged (by simp)]
    simp [ofTagged?, record?, Record.required?, Record.slot?, fieldless]

/-- **A request is read back from its value**, if its delay is. -/
theorem ofJson?_toJson {r : ViewRequest} (h : r.DelayReadsBack) : ofJson? r.toJson = some r := by
  rw [ofJson?, if_pos (writable_toJson h).keepable, ofTagged?_toJson h]

end ViewRequest
end SicDebugger
