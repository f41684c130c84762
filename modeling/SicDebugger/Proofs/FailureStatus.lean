import SicDebugger.Proofs.FailedLoads

/-!
# Errors in the sources behind a status

An answer that refuses a load and names errors in a file is the way in which the simulator tells of
errors in the sources. It gets through if it comes with a status of success: then the load fails
with the files of the answer, and what loads have found is what these files have. Behind any other
status the body is not looked at but only quoted, the load ends in an error of transport, and the
session keeps what earlier loads have found.
-/

namespace SicDebugger

/-- A body is an answer that refuses a load, with errors of the assembler or of the linker in one
file at least. -/
structure RefusesLoad (body : String) (reply : LoadReply) : Prop where
  read : (Json.ofText? body).bind LoadReply.ofJson? = some reply
  refused : reply.ok = false
  faulty : ∃ f ∈ reply.files, f.assemblerErrors ≠ [] ∨ f.linkerError ≠ none

section

variable {status : Nat} {body : String} {reply : LoadReply}

lemma LoadedFile.hasErrors_iff (f : LoadedFile) :
    f.hasErrors = true ↔ f.assemblerErrors ≠ [] ∨ f.linkerError ≠ none := by
  rw [hasErrors, Bool.or_eq_true, Option.isSome_iff_ne_none]
  simp

/-- Such an answer comes to a failed load of its files. -/
lemma RefusesLoad.outcome (h : RefusesLoad body reply) :
    reply.outcome = .ok (.failed reply.files) := by
  have hfaulty : reply.files.any LoadedFile.hasErrors = true := by
    obtain ⟨f, hf, herrors⟩ := h.faulty
    exact List.any_eq_true.mpr ⟨f, hf, f.hasErrors_iff.mpr herrors⟩
  rw [LoadReply.outcome, if_neg (by simp [h.refused]), if_pos hfaulty]

lemma isSuccess_iff : isSuccess status = true ↔ 200 ≤ status ∧ status < 300 :=
  decide_eq_true_iff

/-- With a status of success the files get through. -/
lemma RefusesLoad.loaded_of_success (h : RefusesLoad body reply)
    (hstatus : 200 ≤ status ∧ status < 300) :
    (Arrival.answered status body).loaded = .ok (.failed reply.files) := by
  rw [Arrival.loaded, Arrival.reply, if_pos (isSuccess_iff.mpr hstatus), h.read]
  exact h.outcome

/-- Behind any other status all bodies come to the error that quotes them. -/
lemma Arrival.loaded_of_failure (body : String) (hstatus : ¬ (200 ≤ status ∧ status < 300)) :
    (Arrival.answered status body).loaded =
      .error (.transport ("/load answered " ++ statusText status ++ ": " ++ body)) := by
  rw [Arrival.loaded, Arrival.reply, if_neg fun h => hstatus (isSuccess_iff.mp h)]
  rfl

end

namespace Controller

/-- **Errors in the sources get through with a status of success, and with no other.** The load then
fails with exactly the files of the answer, and a run or a step from idle leaves them in the table of
diagnostics as what loads have found. Behind any other status the same answer is an error of
transport, and the session is left as it was. -/
theorem source_errors_reported_iff (status : Nat) (body : String) (reply : LoadReply)
    (h : RefusesLoad body reply) :
    ((Arrival.answered status body).loaded = .ok (.failed reply.files) ↔
      200 ≤ status ∧ status < 300) ∧
    (¬ (200 ≤ status ∧ status < 300) → (Arrival.answered status body).loaded =
      .error (.transport ("/load answered " ++ statusText status ++ ": " ++ body))) ∧
    ∀ (c : Controller) (r : ViewRequest) (begin : Arrival), c.AtIdle → r = .run ∨ r = .step →
      c.settings.request.filePaths ≠ [] → begin.began = .ok () →
      ∃ d, c.attemptLoad? r ⟨begin, .answered status body⟩ = some d ∧ GivesUp c d ∧
        (200 ≤ status ∧ status < 300 → c.session.Spares d.session ∧
          Session.FindsErrors reply.files d.session) ∧
        (¬ (200 ≤ status ∧ status < 300) → d.session = c.session) := by
  refine ⟨?files, ?error, ?session⟩
  case files =>
    constructor
    · intro hloaded
      by_contra hstatus
      rw [Arrival.loaded_of_failure body hstatus] at hloaded
      cases hloaded
    · exact h.loaded_of_success
  case error => exact Arrival.loaded_of_failure body
  case session =>
    intro c r begin hidle hr hpaths hbegin
    have houtcome : c.loadOutcome ⟨begin, .answered status body⟩ =
        (Arrival.answered status body).loaded :=
      loadOutcome_of_begun (by simpa using hpaths) hbegin
    by_cases hstatus : 200 ≤ status ∧ status < 300
    · have hleft : c.session.leftBy? (c.loadOutcome ⟨begin, .answered status body⟩) =
          some (c.session.applyFailed reply.files) := by
        rw [houtcome, h.loaded_of_success hstatus]
        rfl
      obtain ⟨d, hd, hgone, hsession⟩ := hidle.attempt hr hleft
      refine ⟨d, hd, hgone, fun _ => ?_, fun hother => absurd hstatus hother⟩
      rw [hsession]
      exact ⟨c.session.spares_applyFailed _, c.session.findsErrors_applyFailed _⟩
    · have hleft : c.session.leftBy? (c.loadOutcome ⟨begin, .answered status body⟩) =
          some c.session := by
        rw [houtcome, Arrival.loaded_of_failure body hstatus]
        rfl
      obtain ⟨d, hd, hgone, hsession⟩ := hidle.attempt hr hleft
      exact ⟨d, hd, hgone, fun hsuccess => absurd hsuccess hstatus, fun _ => hsession⟩

/-- A body that tells of an error of the assembler. -/
def refusal : String :=
  "\x7b\"ok\":false,\"files\":[\x7b\"fileName\":\"main.asm\",\"assemblerErrors\":" ++
    "[\x7b\"row\":7,\"col\":2,\"message\":\"bad operand\"\x7d]\x7d]\x7d"

/-- What it is read as. -/
def refusalReply : LoadReply where
  ok := false
  message := ""
  registers := none
  files := [{
    name := "main.asm", assemblerErrors := [{ row := 7, col := 2, message := "bad operand" }] }]

lemma refusesLoad_refusal : RefusesLoad refusal refusalReply where
  read := by decide +kernel
  refused := rfl
  faulty := ⟨_, .head _, .inl (List.cons_ne_nil _ _)⟩

/-- The error of the assembler is left in the table behind the last status of success, and the
session stays as it was behind the next status. -/
theorem source_errors_reported_up_to_299 :
    let c : Controller := .ofSettings oneSource
    let begin : Arrival := .answered 200 "\x7b\"ok\":true\x7d"
    RefusesLoad refusal refusalReply ∧
    (Arrival.answered 299 refusal).loaded = .ok (.failed refusalReply.files) ∧
    (∃ e, (Arrival.answered 300 refusal).loaded = .error (.transport e)) ∧
    c.AtIdle ∧ c.settings.request.filePaths ≠ [] ∧ begin.began = .ok () ∧
    (∃ d, c.attemptLoad? .step ⟨begin, .answered 299 refusal⟩ = some d ∧
      Session.FindsErrors refusalReply.files d.session) ∧
    ∃ d, c.attemptLoad? .run ⟨begin, .answered 300 refusal⟩ = some d ∧ d.session = c.session := by
  intro c begin
  have hidle : c.AtIdle := ⟨rfl, rfl, rfl⟩
  have hpaths : c.settings.request.filePaths ≠ [] := List.cons_ne_nil _ _
  have hbegin : begin.began = .ok () := by decide +kernel
  obtain ⟨hfiles, -, hkept⟩ := source_errors_reported_iff 299 _ _ refusesLoad_refusal
  obtain ⟨-, herror, hspared⟩ := source_errors_reported_iff 300 _ _ refusesLoad_refusal
  obtain ⟨d, hd, -, hfinds, -⟩ := hkept c .step begin hidle (.inr rfl) hpaths hbegin
  obtain ⟨d', hd', -, -, hsession⟩ := hspared c .run begin hidle (.inl rfl) hpaths hbegin
  exact ⟨refusesLoad_refusal, hfiles.mpr (by decide), ⟨_, herror (by decide)⟩, hidle, hpaths, hbegin,
    ⟨d, hd, (hfinds (by decide)).2⟩, d', hd', hsession (by decide)⟩

/-- The answer tells what is wrong with the sources, and the load is an error of transport. -/
theorem source_errors_lost_at_422 :
    RefusesLoad refusal refusalReply ∧
    (Arrival.answered 422 refusal).loaded ≠ .ok (.failed refusalReply.files) ∧
    (Arrival.answered 422 refusal).loaded =
      .error (.transport ("/load answered 422 Unprocessable Entity: " ++ refusal)) := by
  have hloaded : (Arrival.answered 422 refusal).loaded =
      .error (.transport ("/load answered 422 Unprocessable Entity: " ++ refusal)) := by
    decide +kernel
  refine ⟨refusesLoad_refusal, ?_, hloaded⟩
  rw [hloaded]
  nofun

end Controller
end SicDebugger
