import SicDebugger.Configuration.Basic
import SicDebugger.Controller.State
import SicDebugger.Proofs.Keys

/-!
# The buckets of the sources

The sources that are named with a project are sent to the simulator as paths behind its root, and
the errors of a load come back under those paths, while a view checks a source under the name that
was given. Both have one bucket if the root is absolute, or says nothing. Behind any other relative
root the paths are relative too, and so the root is never taken off them.
-/

namespace SicDebugger

namespace Text

/-- A text falls at a separator into the parts before it and those behind it. -/
lemma split_append_cons (sep : Char) (s r : List Char) :
    split sep (s ++ sep :: r) = split sep s ++ split sep r := by
  induction s with
  | nil =>
    rw [List.nil_append, split.eq_2, if_pos rfl]
    rfl
  | cons c s ih =>
    rw [List.cons_append, split, split, ih]
    by_cases hc : c = sep
    · rw [if_pos hc, if_pos hc, List.cons_append]
    · rw [if_neg hc, if_neg hc]
      obtain ⟨p, rest, hsplit⟩ := List.exists_cons_of_ne_nil (split_ne_nil sep s)
      rw [hsplit]
      rfl

end Text

namespace Path

variable {r f n : String} {names : List String}

/-! ## Paths behind a root -/

/-- Texts on both sides of a slash are read one after the other. -/
lemma names_ofText_slash (s r : String) :
    (ofText (s ++ "/" ++ r)).names = (ofText s).names ++ (ofText r).names := by
  have hsplit : Text.split '/' (s ++ "/" ++ r).toList =
      Text.split '/' s.toList ++ Text.split '/' r.toList := by
    rw [String.toList_append, String.toList_append, List.append_assoc]
    exact Text.split_append_cons '/' s.toList r.toList
  rw [ofText, hsplit, List.map_append, List.filter_append]
  rfl

/-- A text with something behind it is as absolute as it was. -/
lemma absolute_ofText_append (hr : r ≠ "") (s : String) :
    (ofText (r ++ s)).absolute = (ofText r).absolute := by
  obtain ⟨c, cs, hcs⟩ := List.exists_cons_of_ne_nil fun hnil : r.toList = [] =>
    hr (String.toList_eq_nil_iff.mp hnil)
  rw [ofText, ofText, String.toList_append, hcs]
  rfl

/-- A relative path behind a root is read as the root and then the path. -/
lemma ofText_joinPath (hf : (ofText f).absolute = false) :
    ofText (Configuration.joinPath r f) =
      ⟨(ofText r).absolute, (ofText r).names ++ (ofText f).names⟩ := by
  have hrelative : f.toList.head? ≠ some '/' := beq_eq_false_iff_ne.mp hf
  rw [Configuration.joinPath, if_neg hrelative]
  by_cases hr : r = ""
  · rw [if_pos (.inl hr), hr, String.empty_append]
    exact congrArg (Path.mk · _) hf
  by_cases hlast : r.toList.getLast? = some '/'
  · -- the slash at the end of the root says nothing
    obtain ⟨front, hfront⟩ := List.getLast?_eq_some_iff.mp hlast
    have hroot : r = String.ofList front ++ "/" ++ "" := by
      apply String.toList_injective
      rw [hfront, String.append_empty, String.toList_append, String.toList_ofList]
      rfl
    have hnames : (ofText r).names = (ofText (String.ofList front)).names := by
      rw [hroot, names_ofText_slash]
      exact List.append_nil _
    have hjoined : (ofText (r ++ f)).names = (ofText r).names ++ (ofText f).names := by
      rw [hnames, hroot, String.append_empty, names_ofText_slash]
    rw [if_pos (.inr hlast), ← absolute_ofText_append hr f, ← hjoined]
  · rw [if_neg (not_or.mpr ⟨hr, hlast⟩), ← names_ofText_slash, String.append_assoc,
      ← absolute_ofText_append hr ("/" ++ f)]

/-! ## Keys behind a root -/

/-- With a name more in front the text of a relative path is longer. -/
lemma length_toText_cons (hn : Legible n) (names : List String) :
    (toText ⟨false, names⟩).length < (toText ⟨false, n :: names⟩).length := by
  have hpos : 0 < n.toList.length := List.length_pos_iff.mpr fun hnil =>
    hn.ne_empty (String.toList_eq_nil_iff.mp hnil)
  rw [← String.length_toList, ← String.length_toList, toList_toText, toList_toText]
  cases names with
  | nil => simpa using hpos
  | cons m rest =>
    rw [List.map_cons (a := n), List.map_cons, List.intercalate_cons_cons]
    simp
    omega

lemma length_toText_append (h : ∀ n ∈ names, Legible n) (hne : names ≠ [])
    (rest : List String) :
    (toText ⟨false, rest⟩).length < (toText ⟨false, names ++ rest⟩).length := by
  induction names with
  | nil => exact absurd rfl hne
  | cons n names ih =>
    have hcons := length_toText_cons (h n List.mem_cons_self) (names ++ rest)
    by_cases hnames : names = []
    · rwa [hnames] at hcons ⊢
    · exact (ih (fun m hm => h m (List.mem_cons_of_mem n hm)) hnames).trans hcons

/-- A key of a text is as long as what is known of it. -/
lemma length_key (root : Path) (file : String) :
    (key (some root) file).length = (known root (ofText file).normal).toText.length := by
  rw [key_eq, slashed, ← String.length_toList, ← String.length_toList, String.toList_ofList,
    List.length_map]

/-- A relative path has one key by itself and behind the root exactly if the root is absolute or
says nothing. -/
lemma key_joinPath_eq_iff (hf : (ofText f).absolute = false) (hdots : ".." ∉ (ofText f).names) :
    key (some (ofText r).normal) (Configuration.joinPath r f) = key (some (ofText r).normal) f ↔
      (ofText r).absolute = true ∨ (ofText r).normal.names = [] := by
  have hself : (ofText f).normal = ⟨false, (ofText f).names⟩ := by
    rw [normal_of_no_dots hdots, ← hf]
  have hbehind : (ofText (Configuration.joinPath r f)).normal =
      ⟨(ofText r).absolute, (ofText r).normal.names ++ (ofText f).names⟩ := by
    rw [ofText_joinPath hf, normal_append hdots]
  cases hr : (ofText r).absolute with
  | true =>
    refine iff_of_true ?_ (.inl rfl)
    apply key_congr
    rw [hbehind, hself, hr, known_append (absolute_normal hr)]
    rfl
  | false =>
    have hrelative : (ofText r).normal.absolute = false := hr
    rw [or_iff_right Bool.false_ne_true]
    constructor
    · intro hkey
      by_contra hne
      have hlonger := length_toText_append (clean_normal (clean_ofText r)) hne (ofText f).names
      have hsame := congrArg String.length hkey
      rw [length_key, length_key, known_of_relative hrelative, known_of_relative hrelative,
        hbehind, hself, hr] at hsame
      exact Nat.ne_of_gt hlonger hsame
    · intro hnothing
      apply key_congr
      rw [hbehind, hself, hr, hnothing, List.nil_append]

end Path

/-! ## The configured debugger -/

/-- A computation that goes on and succeeds has succeeded before. -/
lemma exists_of_bind_eq_ok {ε α β : Type} {x : Except ε α} {go : α → Except ε β} {b : β}
    (h : x >>= go = .ok b) : ∃ a, x = .ok a ∧ go a = .ok b := by
  cases x with
  | error e => cases h
  | ok a => exact ⟨a, rfl, h⟩

namespace Configuration

variable {s : Surroundings} {config : Configuration} {root : String} {files : List String}

/-- Sources that are named are loaded from behind the root, and the root is that of the project. -/
lemma request_of_read (hread : read s = .ok config) (harguments : s.arguments = root :: files)
    (hfiles : files ≠ []) :
    config.controller.request.filePaths = files.map (joinPath root) ∧
      config.controller.projectRoot = some root := by
  have hnamed : (s.arguments.drop 1).isEmpty = false := by
    rw [harguments, List.drop_one, List.tail_cons, List.isEmpty_eq_false_iff]
    exact hfiles
  unfold read at hread
  dsimp only at hread
  split at hread
  · cases hread
  · rw [hnamed, harguments] at hread
    obtain ⟨mode, -, hread⟩ := exists_of_bind_eq_ok hread
    obtain ⟨delay, -, hread⟩ := exists_of_bind_eq_ok hread
    obtain ⟨window, -, hread⟩ := exists_of_bind_eq_ok hread
    obtain ⟨bind, -, hread⟩ := exists_of_bind_eq_ok hread
    cases hread
    exact ⟨rfl, rfl⟩

/-- The controller keeps the diagnostics of the project at its root. -/
lemma key_ofSettings {settings : ControllerSettings} (h : settings.projectRoot = some root) :
    (Controller.ofSettings settings).session.diagnostics.key =
      Path.key (some (Path.ofText root).normal) := by
  rw [Controller.ofSettings, h]
  rfl

/-- A source is sent to the simulator under a path that has the key of the name that was given, if
the name is relative and without `..`, and the root is absolute or says nothing. Behind every other
root it has another key. -/
theorem one_bucket_for_a_source (hread : read s = .ok config)
    (harguments : s.arguments = root :: files) :
    ∀ (i : Nat) (file : String), files[i]? = some file → (Path.ofText file).absolute = false →
      ".." ∉ (Path.ofText file).names →
        ∃ sent, config.controller.request.filePaths[i]? = some sent ∧
          ((Controller.ofSettings config.controller).session.diagnostics.key sent =
              (Controller.ofSettings config.controller).session.diagnostics.key file ↔
            (Path.ofText root).absolute = true ∨ (Path.ofText root).normal.names = []) := by
  intro i file hi hrelative hdots
  have hfiles : files ≠ [] := by
    rintro rfl
    cases hi
  obtain ⟨hpaths, hroot⟩ := request_of_read hread harguments hfiles
  refine ⟨joinPath root file, ?_, ?_⟩
  · rw [hpaths, List.getElem?_map, hi, Option.map_some]
  · rw [key_ofSettings hroot]
    exact Path.key_joinPath_eq_iff hrelative hdots

/-- One source in a project below the working folder. -/
def onCommandLine (root : String) : Surroundings where
  workingFolder := "/home/me"
  entries? := (FileTree.ofPaths ["home", "me"] ["proj/src/main.asm"]).entries?
  setting? := fun _ => none
  arguments := [root, "src/main.asm"]

/-- The command line is accepted. -/
lemma exists_read_onCommandLine (root : String)
    (h : ((read (onCommandLine root)).toOption).isSome = true) :
    ∃ config, read (onCommandLine root) = .ok config := by
  cases hread : read (onCommandLine root) with
  | error e =>
    rw [hread] at h
    cases h
  | ok config => exact ⟨config, rfl⟩

/-- An absolute root may be spelled with parts that say nothing. -/
theorem one_bucket_behind_absolute_root : ∃ config sent,
    read (onCommandLine "/home//me/./proj/") = .ok config ∧
    config.controller.request.filePaths[0]? = some sent ∧
    (Controller.ofSettings config.controller).session.diagnostics.key sent =
      (Controller.ofSettings config.controller).session.diagnostics.key "src/main.asm" := by
  obtain ⟨config, hread⟩ := exists_read_onCommandLine "/home//me/./proj/" (by decide +kernel)
  obtain ⟨sent, hsent, hiff⟩ := one_bucket_for_a_source hread rfl 0 "src/main.asm" rfl
    (by decide +kernel) (by decide +kernel)
  exact ⟨config, sent, hread, hsent, hiff.mpr (by decide +kernel)⟩

/-- Behind a relative root a source has two buckets: one for what a load finds in it, and one for
what a check finds. -/
theorem two_buckets_behind_relative_root : ∃ config sent,
    read (onCommandLine "proj") = .ok config ∧
    config.controller.request.filePaths[0]? = some sent ∧
    (Controller.ofSettings config.controller).session.diagnostics.key sent ≠
      (Controller.ofSettings config.controller).session.diagnostics.key "src/main.asm" := by
  obtain ⟨config, hread⟩ := exists_read_onCommandLine "proj" (by decide +kernel)
  obtain ⟨hpaths, hroot⟩ := request_of_read hread rfl (List.cons_ne_nil _ _)
  refine ⟨config, "proj/src/main.asm", hread, ?_, ?_⟩
  · rw [hpaths]
    rfl
  · rw [key_ofSettings hroot]
    decide +kernel

end Configuration
end SicDebugger
