import SicDebugger.Simulator.Reply
import Mathlib.Data.List.Forall2
import Mathlib.Tactic.Lemma

/-!
# Answers that leave fields out

A record may leave a field out, or write null for it, and what is read then is the default of the
field. A form says for each field of a record what is written for it, and is the same for objects
that differ in unknown keys or in the order of their keys. What is read of a row, and of an answer to
a load that lists rows, depends on the form alone. Of the fields of a row only the mark of a comment
does not take null, and one such null is enough to make the whole answer unreadable.
-/

namespace SicDebugger
namespace Json

/-- What a record has for a field. -/
inductive Entry (α : Type) where
  | missing
  | null
  | given (a : α)
deriving DecidableEq

namespace Entry

variable {α β : Type}

/-- What becomes of an entry, where nothing and null become the same. -/
def elim (b : β) (f : α → β) : Entry α → β
  | missing | null => b
  | given a => f a

/-- The value of a field with a default. -/
def getD (e : Entry α) (default : α) : α := e.elim default id

lemma elim_some (e : Entry α) (b : β) (f : α → β) :
    e.elim (some b) (fun a => some (f a)) = some (e.elim b f) := by
  cases e <;> rfl

/-- The values written for a field make up an entry: none, null, or one that stands for what is
given. -/
inductive Written (Stands : Json → α → Prop) : Entry α → List Json → Prop
  | missing : Written Stands missing []
  | null : Written Stands null [.null]
  | given {j : Json} {a : α} : j ≠ .null → Stands j a → Written Stands (given a) [j]

end Entry

/-- The values written for a field: in an object all that stand under its keys, in an array the one
in its place. -/
def written (keys : List String) (place : Nat) : Json → List Json
  | .object members => (members.filter fun m => keys.contains m.1).map Prod.snd
  | .array items => items[place]?.toList
  | _ => []

/-- A value is a record of so many fields: an object, or an array that has no more items. -/
def IsRecord (arity : Nat) : Json → Prop
  | .object _ => True
  | .array items => items.length ≤ arity
  | _ => False

/-- A value is a list of values that stand for the elements. -/
def Lists {α : Type} (Stands : Json → α → Prop) (j : Json) (xs : List α) : Prop :=
  ∃ items, j = .array items ∧ List.Forall₂ Stands items xs

/-! ## Reading fields -/

section

variable {α β : Type} {arity place : Nat} {keys : List String} {j x : Json} {r : Record}
  {e : Entry α} {Stands : Json → α → Prop} {read : Json → Option β}
  {default : β}

lemma IsRecord.exists_record? (h : j.IsRecord arity) : ∃ r, j.record? arity = some r := by
  cases j with
  | object members => exact ⟨_, rfl⟩
  | array items => exact ⟨_, if_pos h⟩
  | _ => exact h.elim

/-- A value is read as a record by its kind. -/
lemma of_record? (hr : j.record? arity = some r) :
    (∃ members, j = .object members ∧ r = .keyed members) ∨
      ∃ items, j = .array items ∧ r = .listed items := by
  cases j with
  | object members => exact .inl ⟨members, rfl, (Option.some.inj hr).symm⟩
  | array items =>
    obtain ⟨-, hr⟩ := Option.ite_none_right_eq_some.mp hr
    exact .inr ⟨items, rfl, (Option.some.inj hr).symm⟩
  | _ => cases hr

/-- Nothing is written for a field whose key no member of an object has. -/
lemma written_object_eq_nil {members : List (String × Json)} {key : String}
    (h : ∀ m ∈ members, m.1 ≠ key) : (object members).written [key] place = [] := by
  rw [written, List.map_eq_nil_iff, List.filter_eq_nil_iff]
  simpa using h

lemma slot?_of_written_nil (hr : j.record? arity = some r) (h : j.written keys place = []) :
    ∃ listed, r.slot? keys place = some (.missing listed) := by
  rcases of_record? hr with ⟨members, rfl, rfl⟩ | ⟨items, rfl, rfl⟩
  · refine ⟨false, ?_⟩
    rw [Record.slot?, List.map_eq_nil_iff.mp h]
  · refine ⟨true, ?_⟩
    rw [Record.slot?, Option.toList_eq_nil_iff.mp h]
    rfl

lemma slot?_of_written_singleton (hr : j.record? arity = some r)
    (h : j.written keys place = [x]) : r.slot? keys place = some (.given x) := by
  rcases of_record? hr with ⟨members, rfl, rfl⟩ | ⟨items, rfl, rfl⟩
  · obtain ⟨m, hm, rfl⟩ := List.map_eq_singleton_iff.mp h
    rw [Record.slot?, hm]
  · rw [Record.slot?, Option.toList_eq_singleton_iff.mp h]
    rfl

/-- A field that may be left out gives its default where it is missing, and else what its value is
read as, null like any other. -/
lemma defaulted?_of_written (outcome : α → Option β) (hr : j.record? arity = some r)
    (he : e.Written Stands (j.written keys place))
    (hread : ∀ x a, x ≠ .null → Stands x a → read x = outcome a) :
    r.defaulted? keys place default read =
      match e with
      | .missing => some default
      | .null => read .null
      | .given a => outcome a := by
  unfold Record.defaulted?
  generalize hvalues : j.written keys place = values at he
  cases he with
  | missing =>
    obtain ⟨listed, hslot⟩ := slot?_of_written_nil hr hvalues
    rw [hslot]
  | null => rw [slot?_of_written_singleton hr hvalues]
  | given hne hstands =>
    rw [slot?_of_written_singleton hr hvalues]
    exact hread _ _ hne hstands

/-- A field that may be left out or null gives its default in both cases. -/
lemma nullable?_of_written (outcome : α → Option β) (hr : j.record? arity = some r)
    (he : e.Written Stands (j.written keys place))
    (hread : ∀ x a, x ≠ .null → Stands x a → read x = outcome a) :
    r.nullable? keys place default read = e.elim (some default) outcome := by
  rw [Record.nullable?, defaulted?_of_written outcome hr he fun x a hne hstands => ?_]
  · cases e <;> rfl
  · split
    · contradiction
    · exact hread x a hne hstands

/-- An optional value may be left out or null. -/
lemma defaulted?_optional?_of_written {read : Json → Option α} (hr : j.record? arity = some r)
    (he : e.Written (fun x a => read x = some a) (j.written keys place)) :
    r.defaulted? keys place none (optional? read) = some (e.elim none some) := by
  rw [defaulted?_of_written (fun a => some (some a)) hr he fun x a hne hstands => ?_]
  · cases e <;> rfl
  · unfold optional?
    split
    · contradiction
    · rw [hstands, Option.map_some]

/-- A list is read element by element. -/
lemma list?_of_lists {xs : List α} {outcome : α → Option β} (h : Lists Stands j xs)
    (hread : ∀ x a, Stands x a → read x = outcome a) : list? read j = xs.mapM outcome := by
  obtain ⟨items, rfl, hitems⟩ := h
  unfold list?
  dsimp only
  induction hitems with
  | nil => rfl
  | cons hfirst _ ih => rw [List.mapM_cons, List.mapM_cons, hread _ _ hfirst, ih]

/-- Elements of which some are read and some are not are read if all are. -/
lemma mapM_guard (good : α → Prop) [DecidablePred good] (f : α → β) (xs : List α) :
    xs.mapM (fun a => if good a then some (f a) else none) =
      if ∀ a ∈ xs, good a then some (xs.map f) else none := by
  induction xs with
  | nil => simp
  | cons a rest ih =>
    rw [List.mapM_cons, ih]
    by_cases ha : good a
    · by_cases hrest : ∀ a ∈ rest, good a
      · rw [if_pos ha, if_pos hrest, if_pos (List.forall_mem_cons.mpr ⟨ha, hrest⟩)]
        rfl
      · rw [if_neg hrest, if_neg fun h => hrest (List.forall_mem_cons.mp h).2, if_pos ha]
        rfl
    · rw [if_neg ha, if_neg fun h => ha (List.forall_mem_cons.mp h).1]
      rfl

/-- So a list that is missing or null is read as the empty one. -/
lemma elim_mapM_guard (good : α → Prop) [DecidablePred good] (f : α → β) (e : Entry (List α)) :
    e.elim (some []) (·.mapM fun a => if good a then some (f a) else none) =
      if ∀ a ∈ e.getD [], good a then some ((e.getD []).map f) else none := by
  cases e with
  | given xs => exact mapM_guard good f xs
  | _ => exact (if_pos (List.forall_mem_nil good)).symm

end

end Json

open Json

/-! ## Forms -/

/-- The keys of the texts of a row, in the order of their places. -/
def ListingRow.textKeys : List String :=
  ["addressHex", "rawCodeHex", "rawCodeBinary", "label", "instr", "instrHex", "instrBin", "nixbpe",
    "operand", "comment"]

/-- What a row has for each of its texts, by key, and for the mark of a comment. -/
structure RowForm where
  text : String → Entry String
  isCommentRow : Entry Bool

/-- What a listing has for its rows and variables. -/
structure ListingForm where
  rows : Entry (List RowForm)
  watch : Entry (List WatchVariable)

/-- What a file of an answer to a load has for each of its fields. It always has a name. -/
structure FileForm where
  fileName : String
  listing : Entry ListingForm
  compileErrors : Entry (List AssemblerError)
  linkerError : Entry LinkerError

/-- What an answer to a load has for each of its fields. -/
structure LoadForm where
  ok : Entry Bool
  message : Entry String
  registers : Entry RegisterSnapshot
  files : Entry (List FileForm)

namespace RowForm

/-- A value is a row of the form. -/
structure Describes (j : Json) (f : RowForm) : Prop where
  isRecord : j.IsRecord 11
  text : ∀ place key, ListingRow.textKeys[place]? = some key →
    (f.text key).Written (fun x s => x = .string s) (j.written [key] place)
  isCommentRow :
    f.isCommentRow.Written (fun x b => x = .bool b) (j.written ["isCommentRow"] 10)

/-- The row of the form: the texts that it gives, and the empty one or no mark for all else. -/
def row (f : RowForm) : ListingRow where
  addressHex := (f.text "addressHex").getD ""
  rawCodeHex := (f.text "rawCodeHex").getD ""
  rawCodeBinary := (f.text "rawCodeBinary").getD ""
  label := (f.text "label").getD ""
  instr := (f.text "instr").getD ""
  instrHex := (f.text "instrHex").getD ""
  instrBin := (f.text "instrBin").getD ""
  nixbpe := (f.text "nixbpe").getD ""
  operand := (f.text "operand").getD ""
  comment := (f.text "comment").getD ""
  isCommentRow := f.isCommentRow.getD false

/-- Null is not written for the mark. -/
def Unspoilt (f : RowForm) : Prop := f.isCommentRow ≠ .null

instance : DecidablePred Unspoilt := fun f => inferInstanceAs (Decidable (f.isCommentRow ≠ .null))

/-- A row is read as its form says, unless null is written for its mark. -/
lemma Describes.ofJson? {f : RowForm} {j : Json} (h : f.Describes j) :
    ListingRow.ofJson? j = if f.Unspoilt then some f.row else none := by
  obtain ⟨r, hr⟩ := h.isRecord.exists_record?
  have htext (place : Nat) (key : String) (hkey : ListingRow.textKeys[place]? = some key) :
      r.nullable? [key] place "" string? = some ((f.text key).getD "") := by
    rw [nullable?_of_written some hr (h.text place key hkey) fun x s _ hx => hx ▸ rfl]
    exact (f.text key).elim_some "" id
  have hmark : r.defaulted? ["isCommentRow"] 10 false bool? =
      if f.Unspoilt then some (f.isCommentRow.getD false) else none := by
    rw [defaulted?_of_written some hr h.isCommentRow fun x b _ hx => hx ▸ rfl]
    obtain ⟨text, mark⟩ := f
    cases mark <;> rfl
  simp only [ListingRow.ofJson?, Option.bind_eq_bind, Option.bind_some, hr, htext 0 _ rfl,
    htext 1 _ rfl, htext 2 _ rfl, htext 3 _ rfl, htext 4 _ rfl, htext 5 _ rfl, htext 6 _ rfl,
    htext 7 _ rfl, htext 8 _ rfl, htext 9 _ rfl, hmark]
  split <;> rfl

end RowForm

namespace ListingForm

variable {f : ListingForm} {j : Json}

/-- A value is a listing of the form. -/
structure Describes (j : Json) (f : ListingForm) : Prop where
  isRecord : j.IsRecord 2
  rows : f.rows.Written (Lists RowForm.Describes) (j.written ["rows"] 0)
  watch : f.watch.Written (fun x vs => list? WatchVariable.ofJson? x = some vs)
    (j.written ["watch"] 1)

/-- A listing is read as its form says, unless null is written for the mark of one of its rows. -/
lemma Describes.listingOfJson? (h : f.Describes j) :
    LoadedFile.listingOfJson? j = if ∀ row ∈ f.rows.getD [], row.Unspoilt then
      some ((f.rows.getD []).map RowForm.row, f.watch.getD []) else none := by
  obtain ⟨r, hr⟩ := h.isRecord.exists_record?
  have hrows : r.nullable? ["rows"] 0 [] (list? ListingRow.ofJson?) =
      if ∀ row ∈ f.rows.getD [], row.Unspoilt then some ((f.rows.getD []).map RowForm.row)
      else none := by
    rw [nullable?_of_written _ hr h.rows fun x rows _ hx => list?_of_lists hx fun x row hrow =>
      hrow.ofJson?]
    exact elim_mapM_guard RowForm.Unspoilt RowForm.row f.rows
  have hwatch : r.nullable? ["watch"] 1 [] (list? WatchVariable.ofJson?) =
      some (f.watch.getD []) := by
    rw [nullable?_of_written some hr h.watch fun x vs _ hx => hx]
    exact f.watch.elim_some [] id
  simp only [LoadedFile.listingOfJson?, Option.bind_eq_bind, Option.bind_some, hr, hrows, hwatch]
  split <;> rfl

end ListingForm

namespace FileForm

variable {f : FileForm} {j : Json}

/-- A value is a file of the form. -/
structure Describes (j : Json) (f : FileForm) : Prop where
  isRecord : j.IsRecord 4
  fileName : j.written ["fileName"] 0 = [.string f.fileName]
  listing : f.listing.Written ListingForm.Describes (j.written ["listing"] 1)
  compileErrors : f.compileErrors.Written
    (fun x es => list? AssemblerError.ofJson? x = some es) (j.written assemblerErrorKeys 2)
  linkerError : f.linkerError.Written (fun x e => LinkerError.ofJson? x = some e)
    (j.written ["linkerError"] 3)

/-- The forms of the rows, in order. A file without a listing has none, nor has a listing without
rows. -/
def rows (f : FileForm) : List RowForm := f.listing.elim [] (·.rows.getD [])

/-- The file of the form. -/
def file (f : FileForm) : LoadedFile where
  name := f.fileName
  rows := f.rows.map RowForm.row
  watches := f.listing.elim [] (·.watch.getD [])
  assemblerErrors := f.compileErrors.getD []
  linkerError := f.linkerError.elim none some

/-- Null is not written for the mark of any row. -/
def Unspoilt (f : FileForm) : Prop := ∀ row ∈ f.rows, row.Unspoilt

instance : DecidablePred Unspoilt := fun f =>
  inferInstanceAs (Decidable (∀ row ∈ f.rows, row.Unspoilt))

/-- A file is read as its form says, unless null is written for the mark of one of its rows. -/
lemma Describes.ofJson? (h : f.Describes j) :
    LoadedFile.ofJson? j = if f.Unspoilt then some f.file else none := by
  obtain ⟨r, hr⟩ := h.isRecord.exists_record?
  have hname : r.required? ["fileName"] 0 string? = some f.fileName := by
    rw [Record.required?, slot?_of_written_singleton hr h.fileName]
    rfl
  have hlisting : r.nullable? ["listing"] 1 ([], []) LoadedFile.listingOfJson? =
      if f.Unspoilt then some (f.rows.map RowForm.row, f.listing.elim [] (·.watch.getD []))
      else none := by
    rw [nullable?_of_written _ hr h.listing fun x l _ hl => hl.listingOfJson?]
    obtain ⟨name, listing, errors, error⟩ := f
    cases listing with
    | given l => rfl
    | _ => exact (if_pos (List.forall_mem_nil _)).symm
  have herrors : r.nullable? assemblerErrorKeys 2 [] (list? AssemblerError.ofJson?) =
      some (f.compileErrors.getD []) := by
    rw [nullable?_of_written some hr h.compileErrors fun x es _ hx => hx]
    exact f.compileErrors.elim_some [] id
  simp only [LoadedFile.ofJson?, Option.bind_eq_bind, Option.bind_some, hr, hname, hlisting,
    herrors, defaulted?_optional?_of_written hr h.linkerError]
  split <;> rfl

end FileForm

namespace LoadForm

variable {f : LoadForm} {j : Json}

/-- A value is an answer of the form. -/
structure Describes (j : Json) (f : LoadForm) : Prop where
  isRecord : j.IsRecord 4
  ok : f.ok.Written (fun x b => x = .bool b) (j.written ["ok"] 0)
  message : f.message.Written (fun x s => x = .string s) (j.written ["message"] 1)
  registers : f.registers.Written (fun x r => RegisterSnapshot.ofJson? x = some r)
    (j.written ["registers"] 2)
  files : f.files.Written (Lists FileForm.Describes) (j.written ["files"] 3)

/-- The reply of the form. -/
def reply (f : LoadForm) : LoadReply where
  ok := f.ok.getD false
  message := f.message.getD ""
  registers := f.registers.elim none some
  files := (f.files.getD []).map FileForm.file

/-- An answer that does not write null for whether the load went well is read as its form says,
unless null is written for the mark of one of its rows. -/
lemma Describes.ofJson? (h : f.Describes j) (hok : f.ok ≠ .null) :
    LoadReply.ofJson? j = if ∀ file ∈ f.files.getD [], file.Unspoilt then some f.reply else none := by
  obtain ⟨r, hr⟩ := h.isRecord.exists_record?
  have hflag : r.defaulted? ["ok"] 0 false bool? = some (f.ok.getD false) := by
    rw [defaulted?_of_written some hr h.ok fun x b _ hx => hx ▸ rfl]
    obtain ⟨ok, message, registers, files⟩ := f
    cases ok with
    | null => contradiction
    | _ => rfl
  have hmessage : r.nullable? ["message"] 1 "" string? = some (f.message.getD "") := by
    rw [nullable?_of_written some hr h.message fun x s _ hx => hx ▸ rfl]
    exact f.message.elim_some "" id
  have hfiles : r.nullable? ["files"] 3 [] (list? LoadedFile.ofJson?) =
      if ∀ file ∈ f.files.getD [], file.Unspoilt then some ((f.files.getD []).map FileForm.file)
      else none := by
    rw [nullable?_of_written _ hr h.files fun x files _ hx => list?_of_lists hx fun x file hfile =>
      hfile.ofJson?]
    exact elim_mapM_guard FileForm.Unspoilt FileForm.file f.files
  simp only [LoadReply.ofJson?, Option.bind_eq_bind, Option.bind_some, hr, hflag, hmessage,
    defaulted?_optional?_of_written hr h.registers, hfiles]
  split <;> rfl

end LoadForm

/-! ## Omissions -/

/-- **A field that is left out has its default.** A row is read as its form says, a text that is
missing or null being empty, exactly if null is not written for its mark. An answer to a load that
is right otherwise is read exactly if this holds of all of its rows, and then the rows of each file
are those of its form, no more and no less, in their order. -/
theorem omitted_fields_have_defaults (row : RowForm) (x : Json) (answer : LoadForm) (j : Json)
    (hrow : row.Describes x) (hanswer : answer.Describes j) (hok : answer.ok ≠ .null) :
    ((row.isCommentRow ≠ .null → ListingRow.ofJson? x = some row.row) ∧
      (row.isCommentRow = .null → ListingRow.ofJson? x = none)) ∧
    ((∀ file ∈ answer.files.getD [], ∀ r ∈ file.rows, r.isCommentRow ≠ .null) →
      LoadReply.ofJson? j = some answer.reply ∧
      answer.reply.files.map (·.rows) =
        (answer.files.getD []).map fun file => file.rows.map RowForm.row) ∧
    ((∃ file ∈ answer.files.getD [], ∃ r ∈ file.rows, r.isCommentRow = .null) →
      LoadReply.ofJson? j = none) := by
  rw [hrow.ofJson?, hanswer.ofJson? hok]
  refine ⟨⟨fun hmark => if_pos hmark, fun hmark => if_neg (not_not.mpr hmark)⟩, ?read, ?unread⟩
  case read =>
    intro hmarks
    refine ⟨if_pos hmarks, ?_⟩
    rw [LoadForm.reply, List.map_map]
    rfl
  case unread =>
    rintro ⟨file, hfile, r, hr, hmark⟩
    exact if_neg fun h => h file hfile r hr hmark

/-- A row that has a comment, null for its label, and a key that no row has. -/
def sparseRow : Json :=
  .object [("label", .null), ("origin", .unreadable), ("comment", .string "loop")]

/-- The form of that row. -/
def sparseForm : RowForm where
  text key := if key = "label" then .null else if key = "comment" then .given "loop" else .missing
  isCommentRow := .missing

/-- A row that has nothing but null for its mark. -/
def markedRow : Json := .object [("isCommentRow", .null)]

/-- The form of that row. -/
def markedForm : RowForm where
  text _ := .missing
  isCommentRow := .null

/-- An answer to a load that lists rows of one file. -/
def answerListing (rows : List Json) : Json :=
  .object [("files", .array [.object [("fileName", .string "main.asm"),
    ("listing", .object [("rows", .array rows)])]])]

/-- The form of such an answer. -/
def formListing (rows : List RowForm) : LoadForm where
  ok := .missing
  message := .missing
  registers := .missing
  files := .given [{
    fileName := "main.asm"
    listing := .given { rows := .given rows, watch := .missing }
    compileErrors := .missing
    linkerError := .missing }]

lemma describes_sparseRow : sparseForm.Describes sparseRow where
  isRecord := trivial
  text := by
    intro place key hkey
    have horigin : key ≠ "origin" := fun h => by
      have hmem := List.mem_of_getElem? hkey
      rw [h] at hmem
      exact absurd hmem (by decide)
    by_cases hlabel : key = "label"
    · subst hlabel
      exact .null
    · by_cases hcomment : key = "comment"
      · subst hcomment
        exact .given nofun rfl
      · simp only [sparseForm, if_neg hlabel, if_neg hcomment]
        rw [sparseRow, written_object_eq_nil (by simp [Ne.symm, *])]
        exact .missing
  isCommentRow := .missing

lemma describes_markedRow : markedForm.Describes markedRow where
  isRecord := trivial
  text := by
    intro place key hkey
    have hmark : key ≠ "isCommentRow" := fun h => by
      have hmem := List.mem_of_getElem? hkey
      rw [h] at hmem
      exact absurd hmem (by decide)
    rw [markedRow, written_object_eq_nil (by simpa using hmark.symm)]
    exact .missing
  isCommentRow := .null

/-- The forms of rows make up that of an answer. -/
lemma describes_answerListing {rows : List Json} {forms : List RowForm}
    (h : List.Forall₂ RowForm.Describes rows forms) :
    (formListing forms).Describes (answerListing rows) where
  isRecord := trivial
  ok := .missing
  message := .missing
  registers := .missing
  files := by
    refine .given nofun ⟨_, rfl, .cons ?_ .nil⟩
    exact {
      isRecord := trivial
      fileName := rfl
      listing := .given nofun
        { isRecord := trivial, rows := .given nofun ⟨rows, rfl, h⟩, watch := .missing }
      compileErrors := .missing
      linkerError := .missing }

/-- A row that leaves fields out is read, and so is an answer that lists it twice, but not one that
lists it with a row whose mark is null. -/
theorem sparse_rows_read :
    (sparseForm.Describes sparseRow ∧ sparseForm.isCommentRow ≠ .null ∧
      ListingRow.ofJson? sparseRow = some { comment := "loop" }) ∧
    (markedForm.Describes markedRow ∧ markedForm.isCommentRow = .null ∧
      ListingRow.ofJson? markedRow = none) ∧
    ((formListing [sparseForm, sparseForm]).Describes (answerListing [sparseRow, sparseRow]) ∧
      (formListing [sparseForm, sparseForm]).ok ≠ .null ∧
      (∀ file ∈ (formListing [sparseForm, sparseForm]).files.getD [], ∀ row ∈ file.rows,
        row.isCommentRow ≠ .null) ∧
      ∃ reply, LoadReply.ofJson? (answerListing [sparseRow, sparseRow]) = some reply ∧
        reply.files.map (·.rows) = [[{ comment := "loop" }, { comment := "loop" }]]) ∧
    ((formListing [sparseForm, markedForm]).Describes (answerListing [sparseRow, markedRow]) ∧
      (formListing [sparseForm, markedForm]).ok ≠ .null ∧
      (∃ file ∈ (formListing [sparseForm, markedForm]).files.getD [], ∃ row ∈ file.rows,
        row.isCommentRow = .null) ∧
      LoadReply.ofJson? (answerListing [sparseRow, markedRow]) = none) := by
  have hsparse : (formListing [sparseForm, sparseForm]).Describes
      (answerListing [sparseRow, sparseRow]) :=
    describes_answerListing (.cons describes_sparseRow (.cons describes_sparseRow .nil))
  have hmarked : (formListing [sparseForm, markedForm]).Describes
      (answerListing [sparseRow, markedRow]) :=
    describes_answerListing (.cons describes_sparseRow (.cons describes_markedRow .nil))
  have hall : ∀ file ∈ (formListing [sparseForm, sparseForm]).files.getD [],
      ∀ row ∈ file.rows, row.isCommentRow ≠ .null := by decide
  have hone : ∃ file ∈ (formListing [sparseForm, markedForm]).files.getD [],
      ∃ row ∈ file.rows, row.isCommentRow = .null := by decide
  obtain ⟨⟨hrow, -⟩, hread, -⟩ := omitted_fields_have_defaults _ _ _ _
    describes_sparseRow hsparse nofun
  obtain ⟨⟨-, hspoilt⟩, -, hunread⟩ := omitted_fields_have_defaults _ _ _ _
    describes_markedRow hmarked nofun
  obtain ⟨hreply, hlisted⟩ := hread hall
  exact ⟨⟨describes_sparseRow, nofun, hrow nofun⟩, ⟨describes_markedRow, rfl, hspoilt rfl⟩,
    ⟨hsparse, nofun, hall, _, hreply, hlisted⟩, ⟨hmarked, nofun, hone, hunread hone⟩⟩

/-- Null for its mark makes a row unreadable, and with it the answer that lists the row. -/
theorem marked_row_unreadable :
    markedForm.Describes markedRow ∧ ListingRow.ofJson? markedRow = none ∧
    (formListing [markedForm]).Describes (answerListing [markedRow]) ∧
    LoadReply.ofJson? (answerListing [markedRow]) = none :=
  ⟨describes_markedRow, rfl, describes_answerListing (.cons describes_markedRow .nil), rfl⟩

end SicDebugger
