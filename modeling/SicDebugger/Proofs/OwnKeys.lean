import SicDebugger.Proofs.Buckets

/-!
# Keys of keys

The views are told diagnostics under the keys of files, and name a file by such a key when they ask
for something. So a key is meant to be its own key. It is exactly if it is the text of a path in
normal form that does not lie below the root. The key of a text without backslashes is always of
this kind. A backslash becomes a slash only when the path is in normal form already, so what it
keeps together until then can hold `.` and `..`, an empty part, or the root itself.
-/

namespace SicDebugger
namespace Path

variable {root p : Path} {f s : String}

/-! ## Paths of keys -/

/-- A path is in normal form exactly if `..` is none of its names but the first. -/
lemma normal_eq_self_iff (p : Path) : p.normal = p ↔ ".." ∉ p.names.tail := by
  obtain ⟨absolute, names⟩ := p
  constructor
  · intro hnormal hmem
    have hdown := dots_not_mem_down ⟨absolute, names⟩
    have hnames : Route.names (route ⟨absolute, names⟩) = names := by
      rw [← normal_names, hnormal]
    -- apart from a first `..` the names are those that the route goes down
    apply hdown
    rw [← hnames, Route.names] at hmem
    split at hmem
    · exact hmem
    · exact List.mem_of_mem_tail hmem
  · intro htail
    cases names with
    | nil => rfl
    | cons n rest =>
      have hrest : ".." ∉ rest := htail
      rw [← List.singleton_append, normal_append hrest]
      by_cases hn : n = ".."
      · rw [hn]
        rfl
      · rw [normal_of_no_dots (by simpa using Ne.symm hn)]

/-- A path is known as it is exactly if it is none that lies below an absolute root. -/
lemma known_eq_self_iff (root p : Path) : known root p = p ↔
    (p.absolute = true → root.absolute = true → ¬ root.names <+: p.names) := by
  constructor
  · rintro hsame habsolute hroot ⟨rest, hrest⟩
    have hp : p = ⟨true, root.names ++ rest⟩ := by
      rw [hrest, ← habsolute]
    rw [hp, known_append hroot] at hsame
    exact absurd (congrArg Path.absolute hsame) Bool.false_ne_true
  · intro houtside
    rcases known_cases root p with hsame | ⟨rest, rfl, hbelow⟩
    · exact hsame
    · cases hroot : root.absolute with
      | false => exact known_of_relative hroot _
      | true => exact absurd (List.prefix_append _ _) (houtside rfl hroot)

lemma normal_known (hp : p.normal = p) : (known root p).normal = known root p := by
  rcases known_cases root p with heq | ⟨rest, rfl, heq⟩
  · rw [heq, hp]
  · rw [heq, normal_eq_self_iff]
    rw [normal_eq_self_iff] at hp
    intro hmem
    apply hp
    cases hnames : root.names with
    | nil => exact hmem
    | cons n front => exact List.mem_append_right front (List.mem_of_mem_tail hmem)

lemma known_known (root p : Path) : known root (known root p) = known root p := by
  rcases known_cases root p with heq | ⟨rest, -, heq⟩
  · rw [heq, heq]
  · rw [heq]
    rfl

/-! ## Texts that are their own keys -/

/-- A text that is written as a path is, with no part that is empty or `.`, which has `..` as its
first name alone, and which does not lie below an absolute root. -/
structure OwnKey (root : Path) (s : String) : Prop where
  written : (ofText s).toText = s
  dots : ".." ∉ (ofText s).names.tail
  outside : (ofText s).absolute = true → root.absolute = true →
    ¬ root.names <+: (ofText s).names

lemma ownKey_iff_and : OwnKey root s ↔ (ofText s).toText = s ∧ ".." ∉ (ofText s).names.tail ∧
    ((ofText s).absolute = true → root.absolute = true → ¬ root.names <+: (ofText s).names) :=
  ⟨fun h => ⟨h.written, h.dots, h.outside⟩, fun h => ⟨h.1, h.2.1, h.2.2⟩⟩

instance (root : Path) (s : String) : Decidable (OwnKey root s) :=
  decidable_of_iff _ ownKey_iff_and.symm

/-- What is known of a text is written as a text that is its own key. -/
lemma ownKey_known (root : Path) (s : String) :
    OwnKey root (known root (ofText s).normal).toText := by
  have hread : ofText (known root (ofText s).normal).toText = known root (ofText s).normal :=
    ofText_toText (clean_known (clean_normal (clean_ofText s)))
  constructor
  · rw [hread]
  · rw [hread, ← normal_eq_self_iff, normal_known (normal_normal _)]
  · rw [hread, ← known_eq_self_iff, known_known]

/-- A text without backslashes is its own key exactly if it is of this kind. -/
lemma key_eq_self_iff (h : Plain s) : key (some root) s = s ↔ OwnKey root s := by
  rw [key_of_plain h]
  constructor
  · intro hself
    rw [← hself]
    exact ownKey_known root s
  · intro hown
    rw [(normal_eq_self_iff _).mpr hown.dots, (known_eq_self_iff _ _).mpr hown.outside,
      hown.written]

lemma plain_key (root : Path) (f : String) : Plain (key (some root) f) := plain_slashed _

lemma ownKey_of_plain (h : Plain f) : OwnKey root (key (some root) f) := by
  rw [key_of_plain h]
  exact ownKey_known root f

end Path

/-! ## Buckets under their keys -/

namespace DiagnosticOperation

variable {t : DiagnosticTable} {op : DiagnosticOperation} {f g : String}

/-- The operation about another file. -/
def withFile (file : String) : DiagnosticOperation → DiagnosticOperation
  | put _ ds => put file ds
  | replaceOrigin _ origin ds => replaceOrigin file origin ds
  | clear => clear
  | clearFile _ => clearFile file
  | clearFileOrigin _ origin => clearFileOrigin file origin
  | clearOrigin origin => clearOrigin origin

/-- An operation does the same about each file with the same key. -/
lemma apply_withFile (hfile : op.file? = some f) (hkey : t.key g = t.key f) :
    (op.withFile g).apply t = op.apply t := by
  cases op with
  | put file ds =>
    cases hfile
    rw [withFile, apply, apply, DiagnosticTable.put, DiagnosticTable.put, hkey]
  | replaceOrigin file o ds =>
    cases hfile
    rw [withFile, apply, apply, DiagnosticTable.replaceOrigin, DiagnosticTable.replaceOrigin, hkey]
  | clearFile file =>
    cases hfile
    rw [withFile, apply, apply, DiagnosticTable.clearFile, DiagnosticTable.clearFile, hkey]
  | clearFileOrigin file o =>
    cases hfile
    rw [withFile, apply, apply, DiagnosticTable.clearFileOrigin, DiagnosticTable.clearFileOrigin,
      hkey]
  | clear | clearOrigin => cases hfile

end DiagnosticOperation

namespace DiagnosticTable

variable {t : DiagnosticTable} {k : String} {ds : List Diagnostic} {op : DiagnosticOperation}
  {operations : List DiagnosticOperation}

/-- A bucket was there before an operation, or stands under the key of its file. -/
lemma bucket_of_apply (h : (op.apply t).buckets[k]? = some ds) :
    (∃ before, t.buckets[k]? = some before) ∨ ∃ f, op.file? = some f ∧ k = t.key f := by
  cases hfile : op.file? with
  | some f =>
    by_cases hkey : t.key f = k
    · exact .inr ⟨f, rfl, hkey.symm⟩
    · rw [getElem?_apply hfile hkey] at h
      exact .inl ⟨ds, h⟩
  | none =>
    cases op with
    | put | replaceOrigin | clearFile | clearFileOrigin => cases hfile
    | clear =>
      rw [DiagnosticOperation.apply, clear, Std.ExtTreeMap.getElem?_empty] at h
      cases h
    | clearOrigin o =>
      rw [DiagnosticOperation.apply, clearOrigin, Std.ExtTreeMap.getElem?_filterMap'] at h
      obtain ⟨before, hbefore, -⟩ := Option.bind_eq_some_iff.mp h
      exact .inl ⟨before, hbefore⟩

/-- Each bucket stands under the key of a file that some operation was about. -/
lemma bucket_of_foldl (hempty : t.buckets = ∅)
    (h : (operations.foldl DiagnosticOperation.apply t).buckets[k]? = some ds) :
    ∃ op ∈ operations, ∃ f, op.file? = some f ∧ k = t.key f := by
  induction operations using List.reverseRecOn generalizing ds with
  | nil =>
    rw [List.foldl_nil, hempty, Std.ExtTreeMap.getElem?_empty] at h
    cases h
  | append_singleton operations op ih =>
    rw [List.foldl_append, List.foldl_cons, List.foldl_nil] at h
    rcases bucket_of_apply h with ⟨before, hbefore⟩ | ⟨f, hfile, hkey⟩
    · obtain ⟨op', hop', hrest⟩ := ih hbefore
      exact ⟨op', List.mem_append_left _ hop', hrest⟩
    · rw [DiagnosticOperation.key_foldl] at hkey
      exact ⟨op, List.mem_append_right _ (List.mem_singleton_self op), f, hfile, hkey⟩

/-- The path at which a project lies; without a root it is the empty one, and all paths lie below
that as they are. -/
def base (root : Option String) : Path := (Path.ofText (root.getD "")).normal

lemma key_ofRoot (root : Option String) (f : String) :
    (ofRoot root).key f = Path.key (some (base root)) f := by
  cases root with
  | some r => rfl
  | none =>
    rw [Path.key_eq, Path.known_of_relative (by decide)]
    rfl

/-- The table of the project at a root after operations. -/
def ofOperations (root : Option String) (operations : List DiagnosticOperation) : DiagnosticTable :=
  operations.foldl DiagnosticOperation.apply (ofRoot root)

lemma key_ofOperations (root : Option String) (operations : List DiagnosticOperation) :
    (ofOperations root operations).key = (ofRoot root).key :=
  DiagnosticOperation.key_foldl (ofRoot root) operations

/-- Under a key that is its own key the bucket is found that stands there. -/
lemma get_of_bucket (h : t.buckets[k]? = some ds) (hkey : t.key k = k) : t.get k = ds := by
  rw [get, hkey, Std.ExtTreeMap.getD_eq_getD_getElem?, h, Option.getD_some]

/-- Under a key that is not its own key the bucket is missed, if there is no other. -/
lemma get_put_of_ne {f : String} (hempty : t.buckets = ∅) (hkey : t.key (t.key f) ≠ t.key f) :
    (t.put f ds).get (t.key f) = [] := by
  have hne : compare (t.key f) (t.key (t.key f)) ≠ .eq := by
    rw [ne_eq, Std.compare_eq_iff_eq]
    exact hkey.symm
  have hsame : (t.put f ds).key = t.key := rfl
  rw [get, hsame, Std.ExtTreeMap.getD_eq_getD_getElem?, put, hempty,
    Std.ExtTreeMap.getElem?_insert, if_neg hne, Std.ExtTreeMap.getElem?_empty, Option.getD_none]

/-- A failed load leaves the keys of files. -/
lemma key_applyFailed (s : Session) (files : List LoadedFile) :
    (s.applyFailed files).diagnostics.key = s.diagnostics.key := by
  have hoperations : (s.applyFailed files).diagnostics =
      ((files.filter LoadedFile.hasErrors).map LoadedFile.operation).foldl
        DiagnosticOperation.apply (s.diagnostics.clearOrigin .load) := by
    rw [List.foldl_map]
    rfl
  rw [hoperations, DiagnosticOperation.key_foldl]
  rfl

/-- The key of a file is its own exactly if it is written as one that is. -/
lemma key_key_iff (root : Option String) (f : String) :
    (ofRoot root).key ((ofRoot root).key f) = (ofRoot root).key f ↔
      Path.OwnKey (base root) ((ofRoot root).key f) := by
  rw [key_ofRoot, key_ofRoot]
  exact Path.key_eq_self_iff (Path.plain_key _ f)

/-- The place that a failed load reveals is that of its first error, under the key of the file. -/
lemma reveal_eq {s : Session} {files : List LoadedFile} {place : SourcePlace}
    (h : (s.applyLoad (.failed files)).2 = .failed (some place)) :
    ∃ first, Session.firstError? files = some first ∧
      place = { first with file := s.diagnostics.key first.file } := by
  have hplace : (Session.firstError? files).map
      (fun p => { p with file := s.diagnostics.key p.file }) = some place := by
    injection h
  obtain ⟨first, hfirst, rfl⟩ := Option.map_eq_some_iff.mp hplace
  exact ⟨first, hfirst, rfl⟩

/-- The key of a file is its own key exactly if it is written from a path in normal form that does
not lie below the root; the key of a text without backslashes always is. Whatever operations there
were, every bucket stands under the key of a file that one of them was about. If that is its
own key, the bucket is found under it, and any operation can be about the key for the file. The
place of an error that a failed load reveals is given by such a key too. If the key of a file is
not its own, a bucket is missed that the file alone has. -/
theorem buckets_answer_to_their_keys (root : Option String) :
    (∀ f, (ofRoot root).key ((ofRoot root).key f) = (ofRoot root).key f ↔
      Path.OwnKey (base root) ((ofRoot root).key f)) ∧
    (∀ f, Path.Plain f → Path.OwnKey (base root) ((ofRoot root).key f)) ∧
    (∀ operations k ds, (ofOperations root operations).buckets[k]? = some ds →
      (∃ op ∈ operations, ∃ f, op.file? = some f ∧ k = (ofRoot root).key f) ∧
      (Path.OwnKey (base root) k → (ofOperations root operations).get k = ds ∧
        ∀ (op : DiagnosticOperation) f, op.file? = some f → (ofRoot root).key f = k →
          (op.withFile k).apply (ofOperations root operations) =
            op.apply (ofOperations root operations))) ∧
    (∀ (s : Session) operations files place, s.diagnostics = ofOperations root operations →
      (s.applyLoad (.failed files)).2 = .failed (some place) →
        ∃ first, Session.firstError? files = some first ∧
          place.file = (ofRoot root).key first.file ∧
          (Path.OwnKey (base root) place.file →
            (s.applyFailed files).diagnostics.get place.file =
              (s.applyFailed files).diagnostics.get first.file)) ∧
    ∀ f ds, ds ≠ [] → ¬ Path.OwnKey (base root) ((ofRoot root).key f) →
      ((ofRoot root).put f ds).buckets[(ofRoot root).key f]? = some ds ∧
      ((ofRoot root).put f ds).get ((ofRoot root).key f) ≠ ds := by
  refine ⟨key_key_iff root, ?_, ?_, ?_, ?_⟩
  · intro f hf
    rw [key_ofRoot]
    exact Path.ownKey_of_plain hf
  · intro operations k ds hk
    obtain ⟨op, hop, f, hfile, rfl⟩ := bucket_of_foldl rfl hk
    refine ⟨⟨op, hop, f, hfile, rfl⟩, fun hown => ?_⟩
    have hself := (key_key_iff root f).mpr hown
    rw [← key_ofOperations root operations] at hself hk ⊢
    refine ⟨get_of_bucket hk hself, fun op' g hfile' hg => ?_⟩
    exact DiagnosticOperation.apply_withFile hfile' (hself.trans hg.symm)
  · intro s operations files place hs hreport
    have hkey : s.diagnostics.key = (ofRoot root).key := by rw [hs, key_ofOperations]
    obtain ⟨first, hfirst, rfl⟩ := reveal_eq hreport
    rw [hkey]
    refine ⟨first, hfirst, rfl, fun hown => ?_⟩
    rw [get, get, key_applyFailed, hkey, (key_key_iff root first.file).mpr hown]
  · intro f ds hds hown
    refine ⟨Std.ExtTreeMap.getElem?_insert_self, ?_⟩
    rw [get_put_of_ne rfl fun hself => hown ((key_key_iff root f).mp hself)]
    exact hds.symm

/-- Two files of a project, one of them spelled with backslashes, have their buckets under their own
keys. -/
theorem buckets_of_two_spellings :
    Path.OwnKey (base (some home)) ((ofRoot (some home)).key "src\\a.asm") ∧
    Path.OwnKey (base (some home)) ((ofRoot (some home)).key "/home/me/proj/../b.asm") ∧
    (ofOperations (some home) [.put "src\\a.asm" [default],
      .put "/home/me/proj/../b.asm" []]).get "src/a.asm" = [default] := by
  obtain ⟨-, hplain, hbuckets, -⟩ := buckets_answer_to_their_keys (some home)
  refine ⟨by decide +kernel, hplain _ (by decide +kernel), ?_⟩
  exact ((hbuckets _ "src/a.asm" [default] (by decide +kernel)).2 (by decide +kernel)).1

/-- A point between backslashes comes to light when the key is read, so what a load finds in the
file is missed under the key. -/
theorem bucket_missed_under_its_key :
    (ofRoot (some home)).key ".\\a.asm" = "./a.asm" ∧
    (ofRoot (some home)).key "./a.asm" ≠ "./a.asm" ∧
    ((ofRoot (some home)).put ".\\a.asm" [default]).buckets["./a.asm"]? = some [default] ∧
    ((ofRoot (some home)).put ".\\a.asm" [default]).get "./a.asm" = [] := by
  decide +kernel

end DiagnosticTable
end SicDebugger
