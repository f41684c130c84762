import SicDebugger.Proofs.ViewCodec

/-!
# Texts between the debugger and its views

The debugger and its views exchange texts. Every message comes back from its text unchanged, and so
does every request whose delay does. A text may say the same in other ways, with its keys in another
order, with keys that nobody knows, or as an array: what it is read as is again a value that comes
back from its own text.
-/

namespace SicDebugger

open Json

/-! ## What is read fits -/

section

variable {α : Type} {bound n : Nat} {r : Record} {keys : List String} {place : Nat}

lemma Json.lt_of_nat? {j : Json} (h : nat? bound j = some n) : n < bound := by
  unfold nat? at h
  split at h
  · simpa using (Option.filter_eq_some_iff.mp h).2
  · cases h

/-- What is read of a field is read of a value. -/
lemma Json.Record.exists_of_required? {read : Json → Option α} {a : α}
    (h : r.required? keys place read = some a) : ∃ j, read j = some a := by
  unfold required? at h
  split at h
  · exact ⟨_, h⟩
  · cases h

/-- What is read of an optional field, if it is there, is read of a value. -/
lemma Json.Record.exists_of_optional? {read : Json → Option α} {o : Option α}
    (h : r.optional? keys place read = some o) : ∀ a ∈ o, ∃ j, read j = some a := by
  rintro a ⟨⟩
  unfold optional? Json.optional? at h
  split at h
  · split at h
    · cases h
    · obtain ⟨b, hread, ⟨⟩⟩ := Option.map_eq_some_iff.mp h
      exact ⟨_, hread⟩
  · cases h
  · cases h

/-- Each element of a list is read of a value. -/
lemma Json.exists_of_list? {read : Json → Option α} {xs : List α} {j : Json}
    (h : list? read j = some xs) : ∀ x ∈ xs, ∃ item, read item = some x := by
  unfold list? at h
  split at h
  · rename_i items
    induction items generalizing xs with
    | nil =>
      obtain rfl : [] = xs := Option.some.inj h
      simp
    | cons item items ih =>
      simp only [List.mapM_cons, Option.pure_def, Option.bind_eq_bind, Option.bind_eq_some_iff]
        at h
      obtain ⟨a, hread, rest, hrest, ⟨⟩⟩ := h
      intro x hx
      rcases List.mem_cons.mp hx with rfl | hx
      · exact ⟨item, hread⟩
      · exact ih hrest x hx
  · cases h

end

namespace ViewMessage

lemma listingFits_of_listingOfJson? {j : Json} {l : ListingView} (h : listingOfJson? j = some l) :
    ListingFits l := by
  simp only [listingOfJson?, Option.pure_def, Option.bind_eq_bind, Option.bind_eq_some_iff] at h
  obtain ⟨r, -, file, -, rows, -, breakpoints, -, pcRow, hpc, ⟨⟩⟩ := h
  intro row hrow
  obtain ⟨j, hread⟩ := Record.exists_of_optional? hpc row hrow
  exact lt_of_nat? hread

/-- Only the tag of listings has listings behind it. -/
lemma exists_of_ofTagged?_listings {tag : String} {j : Json} {ls : List ListingView}
    {active : Option String} (h : ofTagged? tag j = some (listings ls active)) :
    ∃ j, list? listingOfJson? j = some ls := by
  unfold ofTagged? at h
  split at h
  case h_3 =>
    simp only [Option.pure_def, Option.bind_eq_bind, Option.bind_eq_some_iff] at h
    obtain ⟨r, -, ls, hls, active, -, ⟨⟩⟩ := h
    exact Record.exists_of_required? hls
  all_goals simp [Option.bind_eq_some_iff] at h

/-- Every message that is read fits. -/
lemma fits_of_ofJson? {j : Json} {m : ViewMessage} (h : ofJson? j = some m) : m.Fits := by
  unfold ofJson? at h
  split at h
  · obtain ⟨⟨tag, rest⟩, -, htagged⟩ := Option.bind_eq_some_iff.mp h
    cases m with
    | listings ls active =>
      intro l hl
      obtain ⟨j, hls⟩ := exists_of_ofTagged?_listings htagged
      obtain ⟨item, hitem⟩ := exists_of_list? hls l hl
      exact listingFits_of_listingOfJson? hitem
    | _ => trivial
  · cases h

end ViewMessage

/-! ## Texts -/

/-- **Messages and requests come back from their texts.** Every message does whose rows at the
program counter are numbers of 64 bits, and every request does whose delay, if it has one, comes
back from the text that is written for it. A message or a request that any text was read as is such
a value, so writing it anew and reading that gives it again. -/
theorem comes_back_from_text :
    (∀ m : ViewMessage, m.Fits → (ofText? m.toJson.toText).bind ViewMessage.ofJson? = some m) ∧
    (∀ r : ViewRequest, r.DelayReadsBack →
      (ofText? r.toJson.toText).bind ViewRequest.ofJson? = some r) ∧
    (∀ (text : String) (m : ViewMessage), (ofText? text).bind ViewMessage.ofJson? = some m →
      (ofText? m.toJson.toText).bind ViewMessage.ofJson? = some m) ∧
    (∀ (text : String) (r : ViewRequest), (ofText? text).bind ViewRequest.ofJson? = some r →
      r.DelayReadsBack → (ofText? r.toJson.toText).bind ViewRequest.ofJson? = some r) := by
  have hmessage : ∀ m : ViewMessage, m.Fits →
      (ofText? m.toJson.toText).bind ViewMessage.ofJson? = some m := fun m h => by
    rw [ofText?_toText (ViewMessage.writable_toJson h), Option.bind_some,
      ViewMessage.ofJson?_toJson h]
  have hrequest : ∀ r : ViewRequest, r.DelayReadsBack →
      (ofText? r.toJson.toText).bind ViewRequest.ofJson? = some r := fun r h => by
    rw [ofText?_toText (ViewRequest.writable_toJson h), Option.bind_some,
      ViewRequest.ofJson?_toJson h]
  refine ⟨hmessage, hrequest, fun text m h => ?_, fun text r _ => hrequest r⟩
  obtain ⟨j, -, hread⟩ := Option.bind_eq_some_iff.mp h
  exact hmessage m (ViewMessage.fits_of_ofJson? hread)

/-- A delay of 250 ms comes back, and so does what an array of its tag and number is read as. -/
theorem delay_comes_back_from_text :
    (ViewRequest.setDelay (.ofNat 250)).DelayReadsBack ∧
    (ofText? "[\"SetDelay\", 2.5e2]").bind ViewRequest.ofJson? = some (.setDelay (.ofNat 250)) ∧
    (ofText? (ViewRequest.setDelay (.ofNat 250)).toJson.toText).bind ViewRequest.ofJson? =
      some (.setDelay (.ofNat 250)) := by
  have hreads : ViewRequest.ReadsBack (.ofNat 250) := by
    unfold ViewRequest.ReadsBack
    decide +kernel
  have hdelay : (ViewRequest.setDelay (.ofNat 250)).DelayReadsBack := fun ms h =>
    ViewRequest.setDelay.inj h ▸ hreads
  have hread : (ofText? "[\"SetDelay\", 2.5e2]").bind ViewRequest.ofJson? =
      some (.setDelay (.ofNat 250)) := by decide +kernel
  exact ⟨hdelay, hread, comes_back_from_text.2.2.2 _ _ hread hdelay⟩

end SicDebugger
