import SicDebugger.Proofs.PathText
import Mathlib.Data.List.DropRight

/-!
# The files that paths denote

Resolved from a directory, a path leads to a file one name after another: `..` leaves the directory,
and stays at the top. What its names come to is a route, so many steps up and names to go down from
there. Of the steps up the normal form keeps only whether their number is odd, so it denotes another
file where more of them matter.
-/

namespace SicDebugger
namespace Path

variable {p : Path} {dir : List String} {n : String}

/-! ## Resolving -/

/-- The file that a name leads to from a directory. Files and directories are given by the names
that lead to them from the top. -/
def enter (dir : List String) (name : String) : List String :=
  if name = ".." then dir.dropLast else dir ++ [name]

/-- The file that a path denotes from a directory. -/
def resolve (dir : List String) (p : Path) : List String :=
  p.names.foldl enter (if p.absolute then [] else dir)

/-- The file that a part of a text leads to from a directory. -/
def walk (dir : List String) (part : String) : List String :=
  if part = "" ∨ part = "." then dir else enter dir part

/-- The file that a text denotes from a directory: it starts at the top if it begins with a slash,
and takes the parts between its slashes in turn. -/
def fileFrom (dir : List String) (text : String) : List String :=
  ((Text.split '/' text.toList).map String.ofList).foldl walk
    (if text.toList.head? = some '/' then [] else dir)

/-- The parts that are dropped when a path is read lead nowhere. -/
lemma fileFrom_eq (dir : List String) (text : String) :
    fileFrom dir text = (ofText text).resolve dir := by
  have hwalk : walk = fun d n => if decide (n ≠ "" ∧ n ≠ ".") = true then enter d n else d := by
    funext d n
    simp only [walk, decide_eq_true_eq, ne_eq, ← not_or]
    by_cases hn : n = "" ∨ n = "."
    · rw [if_pos hn, if_neg (not_not.mpr hn)]
    · rw [if_neg hn, if_pos hn]
  rw [fileFrom, resolve, ofText, List.foldl_filter, hwalk]
  simp only [beq_iff_eq]

lemma resolve_append (dir : List String) (absolute : Bool) (first rest : List String) :
    resolve dir ⟨absolute, first ++ rest⟩ = resolve (resolve dir ⟨absolute, first⟩) ⟨false, rest⟩ :=
  List.foldl_append ..

/-- An absolute path denotes the same file from every directory. -/
lemma resolve_of_absolute (h : p.absolute = true) (dir : List String) :
    p.resolve dir = p.names.foldl enter [] := by
  rw [resolve, if_pos h]

/-- Names other than `..` are gone down one after another. -/
lemma foldl_enter {names : List String} (h : ".." ∉ names) (dir : List String) :
    names.foldl enter dir = dir ++ names := by
  induction names generalizing dir with
  | nil => exact (List.append_nil dir).symm
  | cons n rest ih =>
    rw [List.mem_cons, not_or] at h
    rw [List.foldl_cons, enter, if_neg (Ne.symm h.1), ih h.2, List.append_assoc,
      List.singleton_append]

/-- An absolute path without `..` denotes the file of its names. -/
lemma resolve_absolute {names : List String} (h : ".." ∉ names) (dir : List String) :
    resolve dir ⟨true, names⟩ = names := by
  rw [resolve, if_pos rfl, foldl_enter h, List.nil_append]

/-! ## Routes -/

/-- So many steps up, and the names to go down from there. -/
structure Route where
  up : Nat := 0
  down : List String := []
deriving DecidableEq, Repr

namespace Route

/-- The route that goes on by a name: `..` takes the last name back, or is one more step up. -/
def extend (r : Route) (name : String) : Route :=
  if name = ".." then
    if r.down = [] then { r with up := r.up + 1 } else { r with down := r.down.dropLast }
  else { r with down := r.down ++ [name] }

/-- The file that a route leads to from a directory. -/
def follow (dir : List String) (r : Route) : List String := dir.rdrop r.up ++ r.down

/-- The names that a normal form has for a route. -/
def names (r : Route) : List String := (if r.up % 2 = 1 then [".."] else []) ++ r.down

lemma dropLast_rdrop (dir : List String) (k : Nat) :
    (dir.rdrop k).dropLast = dir.rdrop (k + 1) := by
  rw [List.rdrop, List.rdrop, List.dropLast_eq_take, List.take_take, List.length_take]
  congr 1
  omega

lemma follow_extend (dir : List String) (r : Route) (name : String) :
    (r.extend name).follow dir = enter (r.follow dir) name := by
  unfold extend enter follow
  split
  · split
    · next hdown => rw [hdown, List.append_nil, List.append_nil, dropLast_rdrop]
    · next hdown => rw [List.dropLast_append_of_ne_nil hdown]
  · rw [List.append_assoc]

lemma advance_of_ne {name : String} (h : name ≠ "..") (behind : List String) :
    advance behind name = name :: behind := if_neg h

lemma advance_dots {behind : List String} (h : behind ≠ []) :
    advance behind ".." = behind.tail := by
  cases behind with
  | nil => exact absurd rfl h
  | cons n rest => rfl

/-- The normal form has a route that goes on by a name. A second step up takes back the first. -/
lemma advance_names (r : Route) (name : String) :
    advance r.names.reverse name = (r.extend name).names.reverse := by
  by_cases hname : name = ".."
  · subst hname
    rw [extend, if_pos rfl]
    split
    · next hdown =>
      rw [names, names, hdown, List.append_nil, List.append_nil]
      rcases Nat.mod_two_eq_zero_or_one r.up with heven | hodd
      · rw [if_neg (by omega), if_pos (show (r.up + 1) % 2 = 1 by omega)]
        rfl
      · rw [if_pos hodd, if_neg (show ¬ (r.up + 1) % 2 = 1 by omega)]
        rfl
    · next hdown =>
      have hnames : r.names ≠ [] := List.append_ne_nil_of_right_ne_nil _ hdown
      rw [advance_dots (by rwa [ne_eq, List.reverse_eq_nil_iff]), List.tail_reverse, names, names,
        List.dropLast_append_of_ne_nil hdown]
  · rw [advance_of_ne hname, extend, if_neg hname, names, names, ← List.append_assoc,
      List.reverse_concat]

/-- Names other than `..` are gone down one after another. -/
lemma foldl_extend {names : List String} (h : ".." ∉ names) (r : Route) :
    names.foldl extend r = { r with down := r.down ++ names } := by
  induction names generalizing r with
  | nil => rw [List.append_nil, List.foldl_nil]
  | cons n rest ih =>
    rw [List.mem_cons, not_or] at h
    rw [List.foldl_cons, extend, if_neg (Ne.symm h.1), ih h.2, List.append_assoc,
      List.singleton_append]

lemma mem_extend {r : Route} {name : String} (hn : n ∈ (r.extend name).down) :
    n ∈ r.down ∨ n = name ∧ name ≠ ".." := by
  unfold extend at hn
  split at hn
  · split at hn
    · exact .inl hn
    · exact .inl (List.dropLast_subset _ hn)
  · next hname =>
    exact (List.mem_append.mp hn).imp_right fun h => ⟨List.mem_singleton.mp h, hname⟩

end Route

/-- The names of a path, as steps up and down. -/
def route (p : Path) : Route := p.names.foldl Route.extend {}

/-- A path denotes the file that its route leads to. -/
lemma resolve_eq (dir : List String) (p : Path) :
    p.resolve dir = p.route.follow (if p.absolute then [] else dir) := by
  suffices h : ∀ (names : List String) (r : Route) (start : List String),
      names.foldl enter (r.follow start) = (names.foldl Route.extend r).follow start by
    rw [resolve, route, ← h, Route.follow, List.rdrop_zero, List.append_nil]
  -- the route so far has led to where the rest starts
  intro names
  induction names with
  | nil => exact fun _ _ => rfl
  | cons n rest ih =>
    intro r start
    rw [List.foldl_cons, List.foldl_cons, ← Route.follow_extend, ih]

/-- The normal form has the names of the route. -/
lemma normal_names (p : Path) : p.normal.names = p.route.names := by
  suffices h : ∀ (names : List String) (r : Route),
      names.foldl advance r.names.reverse = (names.foldl Route.extend r).names.reverse by
    rw [normal, route, ← List.reverse_reverse (Route.names _), ← h]
    rfl
  -- the names behind are those of the route so far, the last one first
  intro names
  induction names with
  | nil => exact fun _ => rfl
  | cons n rest ih =>
    intro r
    rw [List.foldl_cons, List.foldl_cons, Route.advance_names, ih]

/-- The names that a route goes down are names of the path other than `..`. -/
lemma mem_down (hn : n ∈ p.route.down) : n ∈ p.names ∧ n ≠ ".." := by
  suffices h : ∀ (names : List String) (r : Route), n ∈ (names.foldl Route.extend r).down →
      n ∈ r.down ∨ n ∈ names ∧ n ≠ ".." by
    exact (h p.names {} hn).resolve_left List.not_mem_nil
  intro names
  induction names with
  | nil => exact fun _ h => .inl h
  | cons m rest ih =>
    intro r h
    rcases ih (r.extend m) h with h | ⟨hmem, hne⟩
    · refine (Route.mem_extend h).imp_right ?_
      rintro ⟨rfl, hne⟩
      exact ⟨List.mem_cons_self, hne⟩
    · exact .inr ⟨List.mem_cons_of_mem m hmem, hne⟩

/-- A file has names of the directory, and names of the path other than `..`. -/
lemma mem_resolve (hn : n ∈ p.resolve dir) : n ∈ dir ∨ n ∈ p.names ∧ n ≠ ".." := by
  rw [resolve_eq, Route.follow, List.mem_append] at hn
  refine hn.imp ?_ mem_down
  intro hstart
  split at hstart
  · rw [List.rdrop_nil] at hstart
    cases hstart
  · exact List.take_subset _ _ hstart

lemma dots_not_mem_down (p : Path) : ".." ∉ p.route.down := fun h => (mem_down h).2 rfl

/-! ## Normal forms -/

/-- The normal form of an absolute path is absolute. -/
lemma absolute_normal (h : p.absolute = true) : p.normal.absolute = true := h

/-- The normal form keeps of the steps up whether their number is odd. -/
lemma route_normal (p : Path) : p.normal.route = { p.route with up := p.route.up % 2 } := by
  rw [route, normal_names, Route.names, List.foldl_append,
    Route.foldl_extend p.dots_not_mem_down]
  rcases Nat.mod_two_eq_zero_or_one p.route.up with heven | hodd
  · rw [if_neg (by omega), heven]
    rfl
  · rw [if_pos hodd, hodd]
    rfl

lemma normal_normal (p : Path) : p.normal.normal = p.normal := by
  have hnames : p.normal.normal.names = p.normal.names := by
    rw [normal_names, route_normal, normal_names, Route.names, Route.names, Nat.mod_mod]
  exact congrArg (Path.mk p.absolute) hnames

/-- A path without `..` is in normal form. -/
lemma normal_of_no_dots (h : ".." ∉ p.names) : p.normal = p := by
  have hnames : p.normal.names = p.names := by
    rw [normal_names, route, Route.foldl_extend h]
    rfl
  exact congrArg (Path.mk p.absolute) hnames

/-- Names other than `..` stay behind a normal form. -/
lemma normal_append {rest : List String} (h : ".." ∉ rest) (absolute : Bool) (names : List String) :
    normal ⟨absolute, names ++ rest⟩ = ⟨absolute, (normal ⟨absolute, names⟩).names ++ rest⟩ := by
  have hnames : (normal ⟨absolute, names ++ rest⟩).names =
      (normal ⟨absolute, names⟩).names ++ rest := by
    rw [normal_names, normal_names, route, List.foldl_append, Route.foldl_extend h, Route.names,
      ← List.append_assoc]
    rfl
  exact congrArg (Path.mk absolute) hnames

/-- A normal form has `..` if the number of steps up is odd. -/
lemma dots_mem_normal (p : Path) : ".." ∈ p.normal.names ↔ p.route.up % 2 = 1 := by
  rw [normal_names, Route.names, List.mem_append, or_iff_left p.dots_not_mem_down]
  split
  · next h => exact ⟨fun _ => h, fun _ => List.mem_singleton_self _⟩
  · next h => exact ⟨fun hmem => absurd hmem List.not_mem_nil, fun hodd => absurd hodd h⟩

/-- The normal form has no other names than the path has, besides `..`. -/
lemma mem_normal (hn : n ∈ p.normal.names) : n = ".." ∨ n ∈ p.names := by
  rw [normal_names, Route.names, List.mem_append] at hn
  refine hn.imp ?_ fun hdown => (mem_down hdown).1
  intro hdots
  split at hdots
  · exact List.mem_singleton.mp hdots
  · cases hdots

lemma clean_normal (h : p.Clean) : p.normal.Clean := by
  intro n hn
  rcases mem_normal hn with rfl | hmem
  · exact ⟨by decide, by decide, by decide⟩
  · exact h n hmem

/-- The normal form denotes the file of the path exactly if the path is absolute, takes one step up
at most, or starts in a directory that is not deep enough for more to matter. -/
lemma resolve_normal (dir : List String) (p : Path) : p.normal.resolve dir = p.resolve dir ↔
    p.absolute = true ∨ p.route.up ≤ 1 ∨ dir.length ≤ p.route.up % 2 := by
  have habsolute : p.normal.absolute = p.absolute := rfl
  -- both go down the same names, so it is what is left of the directory that counts
  rw [resolve_eq, resolve_eq, route_normal, habsolute, Route.follow, Route.follow,
    List.append_left_inj, List.rdrop, List.rdrop, List.take_eq_take_iff]
  cases p.absolute with
  | true => simp
  | false =>
    rw [if_neg Bool.false_ne_true]
    simp only [Bool.false_eq_true, false_or]
    omega

end Path
end SicDebugger
