import LintDebt.Candidates
import LintDebt.Proofs.Todo.Batch
import Mathlib.Data.List.Induction

/-!
# The candidates of a result

The key of a candidate is that of its diagnostic in its file; the source text, the policy and the place
of the diagnostic have no part in it.

* `LintDebt.Todo.SameIdentity`, `LintDebt.Todo.Distinguishable`: todos that are the same by all that
  their keys are made of, and todos that their keys tell apart.
* `LintDebt.Candidates.identity`: an error of a file with all that its key is made of.
* `LintDebt.Candidates.isFirst`: the errors that are the first with their key.
* `LintDebt.Candidates.firsts_ofWarnings`: these are the ones that become candidates.
-/

namespace LintDebt

/-! ## Identity -/

/-- Two todos are the same by all that their keys are made of. -/
structure Todo.SameIdentity (t u : Todo) : Prop where
  engine : t.engine = u.engine
  filePath : t.filePath = u.filePath
  ruleId : t.ruleId = u.ruleId
  span : t.span = u.span

/-- Todos with one identity have one key. -/
theorem Todo.SameIdentity.key_eq {t u : Todo} (h : t.SameIdentity u) : t.key = u.key := by
  unfold key identityBytes
  rw [h.engine, h.filePath, h.ruleId, h.span]

instance (t u : Todo) : Decidable (t.SameIdentity u) :=
  decidable_of_iff (t.engine = u.engine ∧ t.filePath = u.filePath ∧ t.ruleId = u.ruleId ∧ t.span = u.span)
    ⟨fun ⟨hengine, hpath, hrule, hspan⟩ => ⟨hengine, hpath, hrule, hspan⟩,
      fun h => ⟨h.engine, h.filePath, h.ruleId, h.span⟩⟩

/-- Among these todos, different identities have different keys. -/
def Todo.Distinguishable (ts : List Todo) : Prop :=
  ∀ t ∈ ts, ∀ u ∈ ts, t.key = u.key → t.SameIdentity u

instance (ts : List Todo) : Decidable (Todo.Distinguishable ts) :=
  inferInstanceAs (Decidable (∀ t ∈ ts, ∀ u ∈ ts, t.key = u.key → t.SameIdentity u))

namespace Candidates

/-- A diagnostic of a file with all that its key is made of. -/
def identity (engine filePath : String) (d : Diagnostic) : Todo where
  engine := engine
  filePath := filePath
  ruleId := d.ruleId
  span := d.span

/-- The key of a diagnostic of a file. -/
def keyOf (engine filePath : String) (d : Diagnostic) : String :=
  (identity engine filePath d).key

/-- The errors of a file, each with all that its key is made of. -/
def errors (engine filePath : String) (warnings : List Diagnostic) : List Todo :=
  (warnings.filter (·.isError)).map (identity engine filePath)

/-- Whether a diagnostic at a place is the first error of its file with its key. -/
def isFirst (engine filePath : String) (warnings : List Diagnostic) (place : Nat) (d : Diagnostic) :
    Bool :=
  d.isError && !((errors engine filePath (warnings.take place)).map Todo.key).contains
    (keyOf engine filePath d)

/-- The errors of a file that are the first with their keys, with their places. -/
def firstErrors (engine filePath : String) (warnings : List Diagnostic) : List (Diagnostic × Nat) :=
  warnings.zipIdx.filter fun (d, i) => isFirst engine filePath warnings i d

/-- The candidates of a file, one for each error. -/
def ofWarnings (ctx : Context) (filePath : String) (contents : Option String)
    (warnings : List Diagnostic) : List Todo :=
  (warnings.zipIdx.filter fun (d, _) => d.isError).map fun (d, i) =>
    ofDiagnostic ctx filePath contents i d

/-- A candidate has the key of its diagnostic. -/
@[simp] theorem key_ofDiagnostic (ctx : Context) (filePath : String) (contents : Option String)
    (origin : Nat) (d : Diagnostic) :
    (ofDiagnostic ctx filePath contents origin d).key = keyOf ctx.engine filePath d := rfl

/-- The candidates of a result, whether or not there is an error in it. -/
theorem ofResult_fst (ctx : Context) (read : String → Option String) (r : LintResult) :
    (ofResult ctx read r).1 = ofWarnings ctx (Path.relativeTo ctx.baseDir r.sourcePath)
      (read r.sourcePath) r.warnings := by
  unfold ofResult ofWarnings
  dsimp only
  split
  · next h =>
    rw [List.isEmpty_iff.mp h]
    rfl
  · rfl

/-- The candidates of a single result. -/
theorem extract_singleton (ctx : Context) (read : String → Option String) (r : LintResult) :
    (extract ctx read [r]).1 = Batch.ofList (ofWarnings ctx
      (Path.relativeTo ctx.baseDir r.sourcePath) (read r.sourcePath) r.warnings) := by
  rw [← ofResult_fst]
  exact congrArg Batch.ofList (List.append_nil _)

/-- A candidate of several results is that of a diagnostic. -/
theorem exists_of_mem_extract {ctx : Context} {read : String → Option String} {results : List LintResult}
    {c : Todo} (h : c ∈ (extract ctx read results).1.toList) :
    ∃ filePath contents origin d, c = ofDiagnostic ctx filePath contents origin d := by
  have hin : c ∈ (results.map (ofResult ctx read)).flatMap (·.1) := by
    apply Todo.mem_of_mem_firsts
    rw [← Batch.toList_ofList]
    exact h
  obtain ⟨part, hpart, hc⟩ := List.mem_flatMap.mp hin
  obtain ⟨r, -, rfl⟩ := List.mem_map.mp hpart
  rw [ofResult_fst] at hc
  obtain ⟨⟨d, origin⟩, -, rfl⟩ := List.mem_map.mp hc
  exact ⟨_, _, origin, d, rfl⟩

/-! ## One more diagnostic -/

section Concat

variable (ctx : Context) (engine filePath : String) (contents : Option String)
  (warnings : List Diagnostic) (d : Diagnostic)

/-- One more diagnostic gives one more candidate if it is an error. -/
theorem ofWarnings_concat :
    ofWarnings ctx filePath contents (warnings ++ [d]) =
      ofWarnings ctx filePath contents warnings ++
        if d.isError then [ofDiagnostic ctx filePath contents warnings.length d] else [] := by
  unfold ofWarnings
  rw [List.zipIdx_append, List.filter_append, List.map_append]
  congr 1
  cases h : d.isError <;> simp [h]

/-- One more diagnostic gives one more error if it is one. -/
theorem errors_concat :
    errors engine filePath (warnings ++ [d]) =
      errors engine filePath warnings ++ if d.isError then [identity engine filePath d] else [] := by
  unfold errors
  rw [List.filter_append, List.map_append]
  congr 1
  cases h : d.isError <;> simp [h]

/-- Whether a diagnostic is the first with its key depends on those before it only. -/
theorem isFirst_append {place : Nat} (h : place ≤ warnings.length) (others : List Diagnostic) :
    isFirst engine filePath (warnings ++ others) place d =
      isFirst engine filePath warnings place d := by
  unfold isFirst
  rw [List.take_append_of_le_length h]

/-- One more diagnostic gives one more first error if it is an error with a new key. -/
theorem firstErrors_concat :
    firstErrors engine filePath (warnings ++ [d]) =
      firstErrors engine filePath warnings ++
        if isFirst engine filePath warnings warnings.length d then [(d, warnings.length)] else [] := by
  unfold firstErrors
  rw [List.zipIdx_append, List.filter_append]
  congr 1
  · refine List.filter_congr fun (e, i) he => ?_
    have hi : i < warnings.length := by
      have := (List.mem_zipIdx he).2.1
      omega
    exact isFirst_append engine filePath warnings e (Nat.le_of_lt hi) [d]
  · have hlast := isFirst_append engine filePath warnings d (Nat.le_refl warnings.length) [d]
    cases h : isFirst engine filePath warnings warnings.length d with
    | false => simp [hlast, h]
    | true => simp [hlast, h]

end Concat

/-! ## Candidates and errors -/

section Candidates

variable {ctx : Context} {filePath : String} {contents : Option String}
  {warnings : List Diagnostic}

/-- The keys of the candidates are those of the errors. -/
theorem keys_ofWarnings :
    (ofWarnings ctx filePath contents warnings).map Todo.key =
      (errors ctx.engine filePath warnings).map Todo.key := by
  induction warnings using List.reverseRecOn with
  | nil => rfl
  | append_singleton warnings d ih =>
    rw [ofWarnings_concat, errors_concat, List.map_append, List.map_append, ih]
    cases d.isError <;> rfl

/-- The first candidates with their keys are those of the first errors. -/
theorem firsts_ofWarnings :
    Todo.firsts (ofWarnings ctx filePath contents warnings) =
      (firstErrors ctx.engine filePath warnings).map fun (d, i) =>
        ofDiagnostic ctx filePath contents i d := by
  induction warnings using List.reverseRecOn with
  | nil => rfl
  | append_singleton warnings d ih =>
    rw [ofWarnings_concat, firstErrors_concat, List.map_append, ← ih]
    unfold isFirst
    rw [List.take_length]
    cases d.isError with
    | false => simp
    | true =>
      rw [if_pos rfl, Todo.firsts_concat, key_ofDiagnostic, keys_ofWarnings]
      by_cases hkey : keyOf ctx.engine filePath d ∈ (errors ctx.engine filePath warnings).map Todo.key
      · simp [hkey]
      · simp [hkey]

/-- The candidate with a key is that of the first error with this key. -/
theorem get?_ofWarnings {key : String} {c : Todo} :
    (Batch.ofList (ofWarnings ctx filePath contents warnings)).get? key = some c ↔
      ∃ d i, (d, i) ∈ firstErrors ctx.engine filePath warnings ∧
        keyOf ctx.engine filePath d = key ∧ c = ofDiagnostic ctx filePath contents i d := by
  rw [Batch.get?_eq_some_iff, Batch.toList_ofList, firsts_ofWarnings, List.mem_map]
  constructor
  · rintro ⟨⟨⟨d, i⟩, hmem, rfl⟩, hkey⟩
    exact ⟨d, i, hmem, hkey, rfl⟩
  · rintro ⟨d, i, hmem, hkey, rfl⟩
    exact ⟨⟨(d, i), hmem, rfl⟩, hkey⟩

/-- The candidates contain the keys of the errors. -/
theorem contains_ofWarnings {key : String} :
    (Batch.ofList (ofWarnings ctx filePath contents warnings)).contains key =
      ((errors ctx.engine filePath warnings).map Todo.key).contains key := by
  rw [Batch.contains_ofList, keys_ofWarnings]

/-- A first error stands at its place. -/
theorem mem_firstErrors {engine : String} {d : Diagnostic} {i : Nat} :
    (d, i) ∈ firstErrors engine filePath warnings ↔
      warnings[i]? = some d ∧ isFirst engine filePath warnings i d = true := by
  unfold firstErrors
  rw [List.mem_filter, List.mk_mem_zipIdx_iff_getElem?]

end Candidates

end Candidates

end LintDebt
