import SicDebugger.Proofs.Findings
import SicDebugger.Proofs.Keys

/-!
# The buckets of files

Different texts of a project may denote one file, and a bucket is meant to be that of a file. The
key of a text denotes what its normal form denotes. So different files have different keys as long
as the normal forms keep them. One file has one key as long as, moreover, no `..` is left in the
normal forms: then the key is that of the file as it is written from the top.
-/

namespace SicDebugger
namespace Path

variable {f g r : String}

/-! ## Keys and files -/

/-- The file that a text denotes in the project at a root. -/
def denoted (root file : String) : List String := fileFrom (fileFrom [] root) file

/-- The normal form of a text denotes the file that the text denotes. -/
def KeepsFile (root file : String) : Prop :=
  (ofText file).normal.resolve (fileFrom [] root) = denoted root file

instance (root file : String) : Decidable (KeepsFile root file) :=
  inferInstanceAs (Decidable (_ = denoted root file))

/-- A text whose normal form, moreover, has no `..`. If the normal form of the root has one, only
absolute texts are settled. -/
structure Settled (root file : String) : Prop where
  no_dots : ".." ∉ (ofText file).normal.names
  keeps_file : KeepsFile root file
  absolute : ".." ∈ (ofText root).normal.names → (ofText file).absolute = true

lemma settled_iff_and : Settled r f ↔ ".." ∉ (ofText f).normal.names ∧ KeepsFile r f ∧
    (".." ∈ (ofText r).normal.names → (ofText f).absolute = true) :=
  ⟨fun h => ⟨h.no_dots, h.keeps_file, h.absolute⟩, fun h => ⟨h.1, h.2.1, h.2.2⟩⟩

instance (root file : String) : Decidable (Settled root file) :=
  decidable_of_iff _ settled_iff_and.symm

/-- The directory of an absolute root is that of its normal form. -/
lemma resolve_root (hroot : (ofText r).absolute = true) :
    (ofText r).normal.resolve [] = fileFrom [] r := by
  rw [fileFrom_eq, resolve_normal]
  exact .inl hroot

/-- Texts with one key have normal forms that denote one file. -/
lemma resolve_normal_of_key_eq (hroot : (ofText r).absolute = true) (hf : Plain f) (hg : Plain g)
    (h : key (some (ofText r).normal) f = key (some (ofText r).normal) g) :
    (ofText f).normal.resolve (fileFrom [] r) = (ofText g).normal.resolve (fileFrom [] r) := by
  rw [← resolve_root hroot, ← resolve_known (absolute_normal hroot),
    (key_eq_iff hf hg).mp h, resolve_known (absolute_normal hroot)]

/-! ## Files written from the top -/

/-- The text of a file that starts at the top. -/
def fromTop (file : List String) : String := toText ⟨true, file⟩

lemma mem_denoted {n : String} (hn : n ∈ denoted r f) :
    n ≠ ".." ∧ (n ∈ (ofText r).names ∨ n ∈ (ofText f).names) := by
  rw [denoted, fileFrom_eq] at hn
  rcases mem_resolve hn with hdir | ⟨hmem, hne⟩
  · rw [fileFrom_eq] at hdir
    obtain ⟨hmem, hne⟩ := (mem_resolve hdir).resolve_left List.not_mem_nil
    exact ⟨hne, .inl hmem⟩
  · exact ⟨hne, .inr hmem⟩

lemma dots_not_mem_denoted (r f : String) : ".." ∉ denoted r f := fun h => (mem_denoted h).1 rfl

lemma ofText_fromTop (r f : String) : ofText (fromTop (denoted r f)) = ⟨true, denoted r f⟩ := by
  apply ofText_toText
  intro n hn
  exact (mem_denoted hn).2.elim (clean_ofText r n) (clean_ofText f n)

lemma plain_fromTop (hr : Plain r) (hf : Plain f) : Plain (fromTop (denoted r f)) := by
  apply plain_toText
  intro n hn
  exact (mem_denoted hn).2.elim (plain_of_mem_ofText hr) (plain_of_mem_ofText hf)

lemma denoted_fromTop (r f : String) : denoted r (fromTop (denoted r f)) = denoted r f := by
  rw [denoted, fileFrom_eq, ofText_fromTop, resolve_absolute (dots_not_mem_denoted r f)]

lemma normal_fromTop (r f : String) :
    (ofText (fromTop (denoted r f))).normal = ⟨true, denoted r f⟩ := by
  rw [ofText_fromTop, normal_of_no_dots (dots_not_mem_denoted r f)]

lemma settled_fromTop (r f : String) : Settled r (fromTop (denoted r f)) where
  no_dots := by
    rw [normal_fromTop]
    exact dots_not_mem_denoted r f
  keeps_file := by
    rw [KeepsFile, normal_fromTop, denoted_fromTop,
      resolve_absolute (dots_not_mem_denoted r f)]
  absolute := by
    rw [ofText_fromTop]
    exact fun _ => rfl

section

variable (hroot : (ofText r).absolute = true)
include hroot

/-- What is known of a settled text is what is known of its file. -/
lemma Settled.known_eq (h : Settled r f) : known (ofText r).normal (ofText f).normal =
    known (ofText r).normal ⟨true, denoted r f⟩ := by
  by_cases hdots : ".." ∈ (ofText r).normal.names
  · -- the text is absolute, and its normal form is the file from the top
    have habsolute : (ofText f).normal.absolute = true := h.absolute hdots
    have hnames : (ofText f).normal.names = denoted r f := by
      rw [← h.keeps_file, resolve_of_absolute habsolute, foldl_enter h.no_dots, List.nil_append]
    rw [← hnames, ← habsolute]
  · rw [known_of_no_dots (absolute_normal hroot) hdots h.no_dots, resolve_root hroot,
      h.keeps_file]

/-- No file lies below a root whose normal form has `..`, as that is written. So there a text of
which the same is known as of its file has the file for its normal form. -/
lemma normal_eq_of_known_eq (hdots : ".." ∈ (ofText r).normal.names)
    (h : known (ofText r).normal (ofText f).normal =
      known (ofText r).normal ⟨true, denoted r f⟩) : (ofText f).normal = ⟨true, denoted r f⟩ := by
  have houtside : ¬ (ofText r).normal.names <+: denoted r f :=
    fun hbelow => dots_not_mem_denoted r f (hbelow.subset hdots)
  rw [known_of_outside (p := ⟨true, denoted r f⟩) (absolute_normal hroot) houtside] at h
  rcases known_cases (ofText r).normal (ofText f).normal with heq | ⟨rest, -, heq⟩
  · rw [← heq, h]
  · rw [heq] at h
    exact absurd (congrArg Path.absolute h) Bool.false_ne_true

/-- A text is settled if what is known of it is what is known of its file. -/
lemma settled_of_known_eq (h : known (ofText r).normal (ofText f).normal =
    known (ofText r).normal ⟨true, denoted r f⟩) : Settled r f := by
  refine ⟨?_, ?_, ?_⟩
  · by_cases hdots : ".." ∈ (ofText r).normal.names
    · rw [normal_eq_of_known_eq hroot hdots h]
      exact dots_not_mem_denoted r f
    · intro hmem
      have hknown := mem_known hmem hdots
      rw [h] at hknown
      exact dots_not_mem_denoted r f (mem_of_mem_known hknown)
  · rw [KeepsFile, ← resolve_root hroot, ← resolve_known (absolute_normal hroot), h,
      resolve_known (absolute_normal hroot), resolve_absolute (dots_not_mem_denoted r f)]
  · intro hdots
    exact congrArg Path.absolute (normal_eq_of_known_eq hroot hdots h)

end

/-! ## Normal forms that are written -/

lemma ofText_normal (f : String) : ofText (ofText f).normal.toText = (ofText f).normal :=
  ofText_toText (clean_normal (clean_ofText f))

lemma plain_normal (h : Plain f) : Plain (ofText f).normal.toText :=
  plain_toText fun _ hn => plain_of_mem_normal h hn

/-- The normal form of a text has the key of the text. -/
lemma key_normal (root : Path) (f : String) :
    key (some root) (ofText f).normal.toText = key (some root) f := by
  apply key_congr
  rw [ofText_normal, normal_normal]

lemma denoted_normal (r f : String) :
    denoted r (ofText f).normal.toText = (ofText f).normal.resolve (fileFrom [] r) := by
  rw [denoted, fileFrom_eq _ (toText _), ofText_normal]

lemma keepsFile_normal (r f : String) : KeepsFile r (ofText f).normal.toText := by
  rw [KeepsFile, denoted_normal, ofText_normal, normal_normal]

/-! ## What the texts must be -/

/-- A text keeps its file exactly if it is absolute, takes one step up at most, or the directory of
the project is not deep enough for more to matter. -/
lemma keepsFile_iff (r f : String) : KeepsFile r f ↔ (ofText f).absolute = true ∨
    (ofText f).route.up ≤ 1 ∨ (fileFrom [] r).length ≤ (ofText f).route.up % 2 := by
  rw [KeepsFile, denoted, fileFrom_eq _ f, resolve_normal]

/-- A text is settled exactly if it takes an even number of steps up, and is absolute or else takes
none, unless the project lies at the top, and the root takes an even number too. -/
lemma settled_iff (r f : String) : Settled r f ↔ (ofText f).route.up % 2 = 0 ∧
    ((ofText f).absolute = true ∨ (ofText r).route.up % 2 = 0 ∧
      ((ofText f).route.up = 0 ∨ fileFrom [] r = [])) := by
  rw [settled_iff_and, dots_mem_normal, dots_mem_normal, keepsFile_iff, ← List.length_eq_zero_iff]
  cases (ofText f).absolute with
  | true => simp
  | false =>
    simp only [Bool.false_eq_true, imp_false, false_or]
    omega

end Path

/-! ## Buckets -/

/-- The file that an operation is about, unless it is about all. -/
def DiagnosticOperation.file? : DiagnosticOperation → Option String
  | put file _ | replaceOrigin file _ _ | clearFile file | clearFileOrigin file _ => some file
  | clear | clearOrigin _ => none

namespace DiagnosticTable

variable {t : DiagnosticTable} {r f g : String} {op : DiagnosticOperation}

/-- An operation about a file leaves the bucket under another key. -/
lemma getElem?_apply {k : String} (hfile : op.file? = some f) (hkey : t.key f ≠ k) :
    (op.apply t).buckets[k]? = t.buckets[k]? := by
  have hne : compare (t.key f) k ≠ .eq := by
    rwa [ne_eq, Std.compare_eq_iff_eq]
  cases op with
  | put file ds =>
    cases hfile
    rw [DiagnosticOperation.apply, put, Std.ExtTreeMap.getElem?_insert, if_neg hne]
  | replaceOrigin file o ds =>
    cases hfile
    rw [DiagnosticOperation.apply, replaceOrigin, Std.ExtTreeMap.getElem?_alter, if_neg hne]
  | clearFile file =>
    cases hfile
    rw [DiagnosticOperation.apply, clearFile, Std.ExtTreeMap.getElem?_erase, if_neg hne]
  | clearFileOrigin file o =>
    cases hfile
    rw [DiagnosticOperation.apply, clearFileOrigin, Std.ExtTreeMap.getElem?_alter, if_neg hne]
  | clear | clearOrigin => cases hfile

/-- An operation about a file leaves what is in another bucket. -/
lemma get_apply (hfile : op.file? = some f) (hkey : t.key f ≠ t.key g) :
    (op.apply t).get g = t.get g := by
  rw [get, DiagnosticOperation.key_apply, get, Std.ExtTreeMap.getD_eq_getD_getElem?,
    Std.ExtTreeMap.getD_eq_getD_getElem?, getElem?_apply hfile hkey]

/-- A file has one bucket in the project at an absolute root: settled texts that denote one file
have one key. A text without backslashes that is not settled has another key than some settled one
that denotes its file. -/
theorem one_bucket_for_a_file (hroot : (Path.ofText r).absolute = true) :
    (∀ f g, Path.Settled r f → Path.Settled r g → Path.denoted r f = Path.denoted r g →
      (ofRoot (some r)).key f = (ofRoot (some r)).key g) ∧
    (∀ f, Path.Plain r → Path.Plain f → ¬ Path.Settled r f →
      ∃ g, Path.Plain g ∧ Path.Settled r g ∧ Path.denoted r f = Path.denoted r g ∧
        (ofRoot (some r)).key f ≠ (ofRoot (some r)).key g) ∧
    ∀ f, Path.Settled r f ↔ (Path.ofText f).route.up % 2 = 0 ∧
      ((Path.ofText f).absolute = true ∨ (Path.ofText r).route.up % 2 = 0 ∧
        ((Path.ofText f).route.up = 0 ∨ Path.fileFrom [] r = [])) := by
  refine ⟨?_, ?_, Path.settled_iff r⟩
  · intro f g hf hg hsame
    apply Path.key_congr
    rw [hf.known_eq hroot, hg.known_eq hroot, hsame]
  · intro f hr hf hsettled
    refine ⟨_, Path.plain_fromTop hr hf, Path.settled_fromTop r f,
      (Path.denoted_fromTop r f).symm, ?_⟩
    intro hkey
    have hknown := (Path.key_eq_iff hf (Path.plain_fromTop hr hf)).mp hkey
    rw [Path.normal_fromTop] at hknown
    exact hsettled (Path.settled_of_known_eq hroot hknown)

/-- A root of a project. -/
def home : String := "/home/me/proj"

/-- A file below the root, from the root and from the top, with parts that say nothing. A third text
leaves the root and comes back, and is not settled. -/
theorem one_bucket_below_home :
    (Path.ofText home).absolute = true ∧ Path.Settled home "src/./a.asm" ∧
    Path.Settled home "/home/me//proj/lib/../src/a.asm" ∧
    (ofRoot (some home)).key "src/./a.asm" =
      (ofRoot (some home)).key "/home/me//proj/lib/../src/a.asm" ∧
    ¬ Path.Settled home "../proj/src/a.asm" ∧
    ∃ g, Path.Plain g ∧ Path.Settled home g ∧
      Path.denoted home "../proj/src/a.asm" = Path.denoted home g ∧
      (ofRoot (some home)).key "../proj/src/a.asm" ≠ (ofRoot (some home)).key g := by
  have hroot : (Path.ofText home).absolute = true := by decide +kernel
  obtain ⟨hsame, hother, -⟩ := one_bucket_for_a_file hroot
  have hf : Path.Settled home "src/./a.asm" := by decide +kernel
  have hg : Path.Settled home "/home/me//proj/lib/../src/a.asm" := by decide +kernel
  have hout : ¬ Path.Settled home "../proj/src/a.asm" := by decide +kernel
  refine ⟨hroot, hf, hg, hsame _ _ hf hg (by decide +kernel), hout, ?_⟩
  exact hother _ (by decide +kernel) (by decide +kernel) hout

/-- A file of the project gets a second bucket under a text that leaves the root and comes back. -/
theorem two_buckets_for_a_file : ∃ r f g, (Path.ofText r).absolute = true ∧ Path.Plain f ∧
    Path.Plain g ∧ Path.denoted r f = Path.denoted r g ∧
    (ofRoot (some r)).key f ≠ (ofRoot (some r)).key g := by
  refine ⟨home, "../proj/a.asm", "a.asm", ?_⟩
  decide +kernel

/-- A bucket is that of one file in the project at an absolute root: texts without backslashes that
keep their files have different keys if they denote different files, and then no operation about the
one changes what is found for the other. A text that does not keep its file shares its key with some
text that does and denotes another file. -/
theorem one_file_for_a_bucket (hroot : (Path.ofText r).absolute = true) :
    (∀ f g, Path.Plain f → Path.Plain g → Path.KeepsFile r f → Path.KeepsFile r g →
      Path.denoted r f ≠ Path.denoted r g →
        (ofRoot (some r)).key f ≠ (ofRoot (some r)).key g ∧
        ∀ (before : List DiagnosticOperation) (op : DiagnosticOperation), op.file? = some f →
          (op.apply (before.foldl DiagnosticOperation.apply (ofRoot (some r)))).get g =
            (before.foldl DiagnosticOperation.apply (ofRoot (some r))).get g) ∧
    (∀ f, Path.Plain f → ¬ Path.KeepsFile r f →
      ∃ g, Path.Plain g ∧ Path.KeepsFile r g ∧ Path.denoted r f ≠ Path.denoted r g ∧
        (ofRoot (some r)).key f = (ofRoot (some r)).key g) ∧
    ∀ f, Path.KeepsFile r f ↔ (Path.ofText f).absolute = true ∨ (Path.ofText f).route.up ≤ 1 ∨
      (Path.fileFrom [] r).length ≤ (Path.ofText f).route.up % 2 := by
  refine ⟨?_, ?_, Path.keepsFile_iff r⟩
  · intro f g hf hg hkeeps hkeeps' hdiffer
    have hkey : (ofRoot (some r)).key f ≠ (ofRoot (some r)).key g := by
      intro hsame
      have hnormal := Path.resolve_normal_of_key_eq hroot hf hg hsame
      rw [hkeeps, hkeeps'] at hnormal
      exact hdiffer hnormal
    refine ⟨hkey, ?_⟩
    intro before op hfile
    apply get_apply hfile
    rwa [DiagnosticOperation.key_foldl]
  · intro f hf hloses
    refine ⟨_, Path.plain_normal hf, Path.keepsFile_normal r f, ?_, (Path.key_normal _ f).symm⟩
    rw [Path.denoted_normal]
    exact fun hsame => hloses hsame.symm

/-- Two files below the root and beside it have their own buckets. A third text takes two steps up
and so does not keep its file. -/
theorem one_file_below_home :
    (Path.ofText home).absolute = true ∧ Path.KeepsFile home "src/a.asm" ∧
    Path.KeepsFile home "../src/a.asm" ∧
    (ofRoot (some home)).key "src/a.asm" ≠ (ofRoot (some home)).key "../src/a.asm" ∧
    ¬ Path.KeepsFile home "../../src/a.asm" ∧
    ∃ g, Path.Plain g ∧ Path.KeepsFile home g ∧
      Path.denoted home "../../src/a.asm" ≠ Path.denoted home g ∧
      (ofRoot (some home)).key "../../src/a.asm" = (ofRoot (some home)).key g := by
  have hroot : (Path.ofText home).absolute = true := by decide +kernel
  obtain ⟨hapart, hshared, -⟩ := one_file_for_a_bucket hroot
  have hf : Path.KeepsFile home "src/a.asm" := by decide +kernel
  have hg : Path.KeepsFile home "../src/a.asm" := by decide +kernel
  have hout : ¬ Path.KeepsFile home "../../src/a.asm" := by decide +kernel
  have hdiffer : Path.denoted home "src/a.asm" ≠ Path.denoted home "../src/a.asm" := by
    decide +kernel
  obtain ⟨hkeys, -⟩ := hapart _ _ (by decide +kernel) (by decide +kernel) hf hg hdiffer
  exact ⟨hroot, hf, hg, hkeys, hout, hshared _ (by decide +kernel) hout⟩

/-- A file two directories above the root shares a bucket with one in it, so the diagnostics of the
one are dropped when those of the other are. -/
theorem one_bucket_for_two_files : ∃ r f g, (Path.ofText r).absolute = true ∧ Path.Plain f ∧
    Path.Plain g ∧ Path.denoted r f ≠ Path.denoted r g ∧
    (ofRoot (some r)).key f = (ofRoot (some r)).key g ∧
    ∃ ds, (((ofRoot (some r)).put g ds).clearFile f).get g ≠
      ((ofRoot (some r)).put g ds).get g := by
  exact ⟨home, "../../a.asm", "a.asm", by decide +kernel, by decide +kernel, by decide +kernel,
    by decide +kernel, by decide +kernel, [default], by decide +kernel⟩

end DiagnosticTable
end SicDebugger
