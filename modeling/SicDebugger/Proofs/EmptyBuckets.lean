import SicDebugger.Proofs.OwnKeys

/-!
# Empty buckets

The views show a file for each bucket of the table, so a bucket is meant to go with its last
diagnostic. Whatever drops diagnostics sees to that, and so does what replaces those of one origin.
What takes a list as the whole bucket does not: it keeps an empty list as it does any other. Such a
bucket lasts until the next operation that reaches its key.
-/

namespace SicDebugger

namespace DiagnosticOperation

/-- Whether an operation reaches the bucket under a key: it is about all files, or about one with
this key. -/
def Reaches (key : String → String) (op : DiagnosticOperation) (k : String) : Prop :=
  ∀ f, op.file? = some f → key f = k

variable {key : String → String} {op : DiagnosticOperation} {f k : String}

lemma reaches_of_file (hfile : op.file? = some f) : op.Reaches key k ↔ key f = k := by
  constructor
  · intro hreaches
    exact hreaches f hfile
  · intro hkey g hg
    rw [hfile, Option.some.injEq] at hg
    rw [← hg, hkey]

lemma reaches_of_all (hfile : op.file? = none) : op.Reaches key k := by
  intro f hf
  rw [hfile] at hf
  cases hf

end DiagnosticOperation

namespace DiagnosticTable

variable {t : DiagnosticTable} {k : String} {ds : List Diagnostic} {op : DiagnosticOperation}
  {operations : List DiagnosticOperation}

/-- The bucket of diagnostics is none where there are no diagnostics. -/
lemma bucket?_ne (ds : List Diagnostic) : bucket? ds ≠ some [] := by
  unfold bucket?
  split
  · exact nofun
  · next hds =>
    rw [ne_eq, Option.some.injEq]
    rintro rfl
    exact hds rfl

/-! ## One operation -/

/-- An operation that reaches a key leaves an empty bucket there if it puts an empty list, and only
then. -/
lemma getElem?_apply_eq_nil_iff (hreaches : op.Reaches t.key k) :
    (op.apply t).buckets[k]? = some [] ↔ ∃ f, op = .put f [] := by
  cases op with
  | put file ds =>
    obtain rfl := hreaches file rfl
    rw [DiagnosticOperation.apply, put, Std.ExtTreeMap.getElem?_insert_self]
    simp
  | replaceOrigin file o ds =>
    obtain rfl := hreaches file rfl
    rw [DiagnosticOperation.apply, replaceOrigin, Std.ExtTreeMap.getElem?_alter_self]
    exact iff_of_false (bucket?_ne _) (by simp)
  | clear =>
    rw [DiagnosticOperation.apply, clear, Std.ExtTreeMap.getElem?_empty]
    simp
  | clearFile file =>
    obtain rfl := hreaches file rfl
    rw [DiagnosticOperation.apply, clearFile, Std.ExtTreeMap.getElem?_erase_self]
    simp
  | clearFileOrigin file o =>
    obtain rfl := hreaches file rfl
    rw [DiagnosticOperation.apply, clearFileOrigin, Std.ExtTreeMap.getElem?_alter_self]
    refine iff_of_false ?_ (by simp)
    intro hempty
    obtain ⟨before, -, hbucket⟩ := Option.bind_eq_some_iff.mp hempty
    exact bucket?_ne _ hbucket
  | clearOrigin o =>
    refine iff_of_false ?_ (by simp)
    rw [DiagnosticOperation.apply, getElem?_clearOrigin]
    exact bucket?_ne _

/-- An operation that does not reach a key leaves the bucket there. -/
lemma getElem?_apply_of_not_reaches (h : ¬ op.Reaches t.key k) :
    (op.apply t).buckets[k]? = t.buckets[k]? := by
  cases hfile : op.file? with
  | none => exact absurd (DiagnosticOperation.reaches_of_all hfile) h
  | some f =>
    rw [DiagnosticOperation.reaches_of_file hfile] at h
    exact getElem?_apply hfile h

/-! ## Runs of operations -/

/-- The last of the operations that reach a key puts an empty list there. -/
def Emptied (key : String → String) (operations : List DiagnosticOperation) (k : String) : Prop :=
  ∃ before f after, operations = before ++ .put f [] :: after ∧ key f = k ∧
    ∀ op ∈ after, ¬ op.Reaches key k

/-- One operation more decides whether a bucket is emptied, unless it does not reach the bucket. -/
lemma emptied_concat {key : String → String} : Emptied key (operations ++ [op]) k ↔
    (op.Reaches key k ∧ ∃ f, op = .put f []) ∨ (¬ op.Reaches key k ∧ Emptied key operations k) := by
  constructor
  · rintro ⟨before, f, after, hsplit, hkey, hafter⟩
    -- the put is the operation at the end, or this one comes after it and does not reach the key
    rcases List.eq_nil_or_concat after with rfl | ⟨rest, last, rfl⟩
    · obtain ⟨-, hlast⟩ := List.append_inj' hsplit rfl
      obtain rfl : op = .put f [] := by simpa using hlast
      exact .inl ⟨(DiagnosticOperation.reaches_of_file rfl).mpr hkey, f, rfl⟩
    · rw [List.concat_eq_append] at hsplit hafter
      rw [← List.cons_append, ← List.append_assoc] at hsplit
      obtain ⟨hrest, hlast⟩ := List.append_inj' hsplit rfl
      obtain rfl : op = last := by simpa using hlast
      exact .inr ⟨hafter op (by simp), before, f, rest, hrest, hkey,
        fun o ho => hafter o (List.mem_append_left _ ho)⟩
  · rintro (⟨hreaches, f, rfl⟩ | ⟨hreaches, before, f, after, rfl, hkey, hafter⟩)
    · exact ⟨operations, f, [], rfl, hreaches f rfl, by simp⟩
    · refine ⟨before, f, after ++ [op], by simp, hkey, ?_⟩
      intro o ho
      rcases List.mem_append.mp ho with ho | ho
      · exact hafter o ho
      · rwa [List.mem_singleton.mp ho]

/-- A bucket is empty exactly if the last operation that reaches it puts an empty list. -/
lemma getElem?_foldl_eq_nil_iff (hempty : t.buckets = ∅) :
    (operations.foldl DiagnosticOperation.apply t).buckets[k]? = some [] ↔
      Emptied t.key operations k := by
  induction operations using List.reverseRecOn with
  | nil =>
    rw [List.foldl_nil, hempty, Std.ExtTreeMap.getElem?_empty]
    refine iff_of_false nofun ?_
    rintro ⟨before, f, after, hsplit, -⟩
    simp at hsplit
  | append_singleton operations op ih =>
    have hkey : (operations.foldl DiagnosticOperation.apply t).key = t.key :=
      DiagnosticOperation.key_foldl t operations
    rw [List.foldl_concat, emptied_concat]
    by_cases hreaches : op.Reaches t.key k
    · rw [getElem?_apply_eq_nil_iff (by rwa [hkey])]
      simp [hreaches]
    · rw [getElem?_apply_of_not_reaches (by rwa [hkey]), ih]
      simp [hreaches]

/-- Each bucket is what is found for some file. -/
lemma exists_get_eq (hempty : t.buckets = ∅)
    (h : (operations.foldl DiagnosticOperation.apply t).buckets[k]? = some ds) :
    ∃ f, (operations.foldl DiagnosticOperation.apply t).get f = ds := by
  obtain ⟨-, -, f, -, rfl⟩ := bucket_of_foldl hempty h
  refine ⟨f, ?_⟩
  rw [get, DiagnosticOperation.key_foldl, Std.ExtTreeMap.getD_eq_getD_getElem?, h, Option.getD_some]

/-- A list that is put is found for the files with the key. -/
lemma get_put (t : DiagnosticTable) (f g : String) (ds : List Diagnostic) :
    (t.put f ds).get g = if t.key f = t.key g then ds else t.get g := by
  have hkey : (t.put f ds).key g = t.key g := rfl
  rw [get, hkey, put, Std.ExtTreeMap.getD_insert, get]
  simp only [Std.compare_eq_iff_eq]

lemma get_of_buckets_eq_empty (h : t.buckets = ∅) (f : String) : t.get f = [] := by
  rw [get, h, Std.ExtTreeMap.getD_empty]

/-- Whatever operations there were, a bucket is empty exactly if the last operation that reaches it
puts an empty list. The table counts as empty exactly if there is nothing to be found for any file
and no such bucket either. -/
theorem bucket_empty_iff (root : Option String) (operations : List DiagnosticOperation) :
    (∀ k : String, (ofOperations root operations).buckets[k]? = some [] ↔
      Emptied (ofRoot root).key operations k) ∧
    ((ofOperations root operations).isEmpty = true ↔
      (∀ f, (ofOperations root operations).get f = []) ∧
      ∀ k, ¬ Emptied (ofRoot root).key operations k) := by
  have hbuckets : ∀ k : String, (ofOperations root operations).buckets[k]? = some [] ↔
      Emptied (ofRoot root).key operations k := fun k => getElem?_foldl_eq_nil_iff rfl
  refine ⟨hbuckets, ?_⟩
  rw [isEmpty, Std.ExtTreeMap.isEmpty_iff]
  constructor
  · intro hempty
    refine ⟨get_of_buckets_eq_empty hempty, ?_⟩
    intro k hk
    rw [← hbuckets, hempty, Std.ExtTreeMap.getElem?_empty] at hk
    cases hk
  · rintro ⟨hget, hnone⟩
    refine Std.ExtTreeMap.ext_getElem? fun {k} => ?_
    rw [Std.ExtTreeMap.getElem?_empty]
    cases hk : (ofOperations root operations).buckets[k]? with
    | none => rfl
    | some ds =>
      -- some file has this bucket, and nothing is found for it
      obtain ⟨f, hf⟩ := exists_get_eq rfl hk
      have hds : ds = [] := hf.symm.trans (hget f)
      exact absurd ((hbuckets k).mp (hds ▸ hk)) (hnone k)

/-- The list of a file is replaced by an empty one, and its bucket is left: it is among all buckets,
and the table does not count as empty, although nothing is found for any file. -/
theorem bucket_left_empty :
    (ofOperations none [.put "a.asm" [default], .put "a.asm" []]).buckets["a.asm"]? = some [] ∧
    (ofOperations none [.put "a.asm" [default], .put "a.asm" []]).isEmpty = false ∧
    ∀ f, (ofOperations none [.put "a.asm" [default], .put "a.asm" []]).get f = [] := by
  refine ⟨by decide +kernel, by decide +kernel, ?_⟩
  intro f
  -- another bucket than the one that was emptied is none at all
  have hput : (ofOperations none [.put "a.asm" [default], .put "a.asm" []]).get f =
      (((ofRoot none).put "a.asm" [default]).put "a.asm" []).get f := rfl
  rw [hput, get_put, get_put]
  split_ifs with hsame hbefore
  · rfl
  · exact absurd hbefore hsame
  · exact get_of_buckets_eq_empty rfl f

end DiagnosticTable
end SicDebugger
