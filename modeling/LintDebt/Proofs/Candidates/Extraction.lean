import LintDebt.Proofs.Candidates

/-!
# How candidates are gathered

Candidates are gathered in one pass over the diagnostics of all results, with a reader of source files that may
answer differently every time: it is asked when the first error of a result is met, and its answer is kept for
the other errors of the result, also when it is that there is no source.  Extracting candidates is the pass with
a reader that goes by the path alone.

* `LintDebt.Candidates.gather`: the pass over all results.
* `LintDebt.Candidates.takeResult_eq`: what one result adds to it, and when the reader is asked.
* `LintDebt.Candidates.IsCandidate`: a todo is made from a diagnostic that is the first of its kind.
* `LintDebt.Candidates.Gathered`: what a batch of candidates is made from.
* `LintDebt.Candidates.extract_gathers`: what is extracted, and what the reader is asked for.
-/

namespace LintDebt.Candidates

variable {ρ : Type}

/-! ## The pass -/

/-- How far a pass has come: the reader as it is by now, the candidates, and the source of the present result as
soon as the reader has answered. -/
structure Pass (ρ : Type) where
  reader : ρ
  batch : Batch := .empty
  contents : Option (Option String) := none

/-- Takes a diagnostic at its place in its result: an error becomes a candidate, for which the reader is asked for
the source, unless it has answered for this result before. -/
def Pass.take (ctx : Context) (read : String → ρ → Option String × ρ) (r : LintResult) (p : Pass ρ) :
    Diagnostic × Nat → Pass ρ
  | (d, i) =>
    if d.isError then
      let (answer, reader) := match p.contents with
        | some answer => (answer, p.reader)
        | none => read r.sourcePath p.reader
      let candidate := ofDiagnostic ctx (Path.relativeTo ctx.baseDir r.sourcePath) answer i d
      ⟨reader, p.batch.insert candidate, some answer⟩
    else p

/-- Takes the diagnostics of a result, for which the reader has not been asked yet. -/
def Pass.takeResult (ctx : Context) (read : String → ρ → Option String × ρ) (p : Pass ρ) (r : LintResult) :
    Pass ρ :=
  r.warnings.zipIdx.foldl (Pass.take ctx read r) { p with contents := none }

/-- The pass over all results. -/
def gather (ctx : Context) (read : String → ρ → Option String × ρ) (reader : ρ) (results : List LintResult) :
    Pass ρ :=
  results.foldl (Pass.takeResult ctx read) { reader }

/-- The sources that a reader is asked for: those of the results with errors. -/
def sourcesAsked (results : List LintResult) : List String :=
  (results.filter (·.hasLiveErrors)).map (·.sourcePath)

/-! ## One result -/

section Result

variable {ctx : Context} {read : String → ρ → Option String × ρ} {r : LintResult} {reader : ρ}
  {batch : Batch}

/-- The candidates of diagnostics at their places. -/
def ofPlaced (ctx : Context) (filePath : String) (contents : Option String) (placed : List (Diagnostic × Nat)) :
    List Todo :=
  (placed.filter fun (d, _) => d.isError).map fun (d, i) => ofDiagnostic ctx filePath contents i d

/-- Once the reader has answered it is not asked again, and its answer serves all errors that follow. -/
theorem foldl_take_answered (answer : Option String) (placed : List (Diagnostic × Nat)) :
    placed.foldl (Pass.take ctx read r) ⟨reader, batch, some answer⟩ =
      ⟨reader, (ofPlaced ctx (Path.relativeTo ctx.baseDir r.sourcePath) answer placed).foldl Batch.insert batch,
        some answer⟩ := by
  induction placed generalizing batch with
  | nil => rfl
  | cons head rest ih =>
    obtain ⟨d, i⟩ := head
    rw [List.foldl_cons, Pass.take]
    cases h : d.isError with
    | false => simpa [ofPlaced, h] using ih
    | true => simpa [ofPlaced, h] using ih

/-- Before it has answered, the reader is asked once if there is an error, and not at all otherwise. -/
theorem foldl_take_unanswered (placed : List (Diagnostic × Nat)) :
    placed.foldl (Pass.take ctx read r) ⟨reader, batch, none⟩ =
      if placed.any (·.1.isError) then
        ⟨(read r.sourcePath reader).2,
          (ofPlaced ctx (Path.relativeTo ctx.baseDir r.sourcePath) (read r.sourcePath reader).1
            placed).foldl Batch.insert batch,
          some (read r.sourcePath reader).1⟩
      else ⟨reader, batch, none⟩ := by
  induction placed with
  | nil => rfl
  | cons head rest ih =>
    obtain ⟨d, i⟩ := head
    rw [List.foldl_cons, Pass.take, List.any_cons]
    cases h : d.isError with
    | false =>
      rw [Bool.false_or]
      simpa [ofPlaced, h] using ih
    | true => simp [foldl_take_answered, ofPlaced, h]

/-- Whether there is an error among the diagnostics does not depend on their places. -/
theorem any_placed (r : LintResult) : r.warnings.zipIdx.any (·.1.isError) = r.hasLiveErrors := by
  rw [LintResult.hasLiveErrors, ← List.zipIdx_map_fst 0 r.warnings, List.any_map, List.zipIdx_map_fst]
  rfl

/-- The errors of a result, at their places, are none when it has none. -/
theorem isEmpty_filter_placed (r : LintResult) :
    (r.warnings.zipIdx.filter fun (d, _) => d.isError).isEmpty = !r.hasLiveErrors := by
  rw [Bool.eq_iff_iff, List.isEmpty_iff, List.filter_eq_nil_iff, Bool.not_eq_true', ← any_placed,
    List.any_eq_false]

/-- A result without errors has no candidates. -/
theorem ofWarnings_of_no_error (h : r.hasLiveErrors = false) (filePath : String) (contents : Option String) :
    ofWarnings ctx filePath contents r.warnings = [] := by
  have hnone := isEmpty_filter_placed r
  rw [h, Bool.not_false, List.isEmpty_iff] at hnone
  unfold ofWarnings
  rw [hnone, List.map_nil]

/-- A result adds its candidates, made with one answer of the reader, who is asked when there is an error. -/
theorem takeResult_eq (p : Pass ρ) :
    (p.takeResult ctx read r).reader =
        (if r.hasLiveErrors then (read r.sourcePath p.reader).2 else p.reader) ∧
      (p.takeResult ctx read r).batch =
        (ofWarnings ctx (Path.relativeTo ctx.baseDir r.sourcePath) (read r.sourcePath p.reader).1
          r.warnings).foldl Batch.insert p.batch := by
  rw [Pass.takeResult, foldl_take_unanswered, any_placed]
  cases h : r.hasLiveErrors with
  | true => exact ⟨rfl, rfl⟩
  | false =>
    rw [ofWarnings_of_no_error h]
    exact ⟨rfl, rfl⟩

end Result

/-! ## All results -/

section Results

variable (ctx : Context) (read : String → ρ → Option String × ρ)

/-- The reader is asked for the sources of the results with errors, one after the other. -/
theorem reader_foldl_takeResult (results : List LintResult) (p : Pass ρ) :
    (results.foldl (Pass.takeResult ctx read) p).reader =
      (sourcesAsked results).foldl (fun reader path => (read path reader).2) p.reader := by
  induction results generalizing p with
  | nil => rfl
  | cons r rest ih =>
    rw [List.foldl_cons, ih, (takeResult_eq p).1]
    unfold sourcesAsked
    rw [List.filter_cons]
    split <;> rfl

/-- Every result adds its candidates, made with some answer that the reader gave for its source. -/
theorem exists_batch_foldl_takeResult (results : List LintResult) (p : Pass ρ) :
    ∃ answered : List (LintResult × Option String),
      answered.map (·.1) = results ∧
        (∀ a ∈ answered, ∃ reader, a.2 = (read a.1.sourcePath reader).1) ∧
        (results.foldl (Pass.takeResult ctx read) p).batch =
          (answered.flatMap fun a => ofWarnings ctx (Path.relativeTo ctx.baseDir a.1.sourcePath) a.2
            a.1.warnings).foldl Batch.insert p.batch := by
  induction results generalizing p with
  | nil => exact ⟨[], rfl, nofun, rfl⟩
  | cons r rest ih =>
    obtain ⟨answered, hresults, hanswers, hbatch⟩ := ih (p.takeResult ctx read r)
    refine ⟨(r, (read r.sourcePath p.reader).1) :: answered, ?_, ?_, ?_⟩
    · rw [List.map_cons, hresults]
    · intro a ha
      rcases List.mem_cons.mp ha with rfl | ha
      · exact ⟨p.reader, rfl⟩
      · exact hanswers a ha
    · rw [List.foldl_cons, hbatch, (takeResult_eq p).2, List.flatMap_cons, List.foldl_append]

end Results

/-! ## What candidates are made from -/

/-- A todo is made from the diagnostic at a place in a result, an error, with what is known of the source; and no
error before it in the result has its rule and its span. -/
structure IsCandidate (ctx : Context) (r : LintResult) (contents : Option String) (place : Nat) (d : Diagnostic)
    (t : Todo) : Prop where
  stands : r.warnings[place]? = some d
  severity : d.severity = .error
  first : ∀ earlier < place, ∀ e, r.warnings[earlier]? = some e → e.severity = .error →
    ¬(e.rule.getD "" = d.rule.getD "" ∧ e.span = d.span)
  engine : t.engine = ctx.engine
  filePath : t.filePath = Path.relativeTo ctx.baseDir r.sourcePath
  ruleId : t.ruleId = d.rule.getD ""
  span : t.span = Span.normalized d.line d.column d.endLine d.endColumn
  snippet : t.snippet = (contents.map t.span.sourceLines).getD ""
  undated : t.createdDate = none ∧ t.warnDate = none ∧ t.errorDate = none
  origin : t.origin = some place
  decay : t.decay = ctx.policy.windowFor (d.rule.getD "")

/-- A batch is made from the errors of results, with a reader that may answer for a path as `answers` says: it has
the keys of the errors, each where it comes first, and every one of its todos is made from an error. -/
structure Gathered (ctx : Context) (answers : String → Option String → Prop) (results : List LintResult)
    (b : Batch) : Prop where
  keys : b.keys = (results.flatMap fun r => (r.warnings.filter (·.isError)).map
    (keyOf ctx.engine (Path.relativeTo ctx.baseDir r.sourcePath))).eraseDups
  candidates : ∀ t ∈ b.toList, ∃ r ∈ results, ∃ contents place d,
    answers r.sourcePath contents ∧ IsCandidate ctx r contents place d t

/-- The first candidates of a result are made from its errors. -/
theorem exists_isCandidate {ctx : Context} {r : LintResult} {contents : Option String} {t : Todo}
    (h : t ∈ Todo.firsts (ofWarnings ctx (Path.relativeTo ctx.baseDir r.sourcePath) contents r.warnings)) :
    ∃ place d, IsCandidate ctx r contents place d t := by
  rw [firsts_ofWarnings] at h
  obtain ⟨⟨d, place⟩, hfirst, rfl⟩ := List.mem_map.mp h
  obtain ⟨hstands, hisFirst⟩ := mem_firstErrors.mp hfirst
  unfold isFirst at hisFirst
  rw [Bool.and_eq_true_iff, Bool.not_eq_true', ← Bool.not_eq_true, List.contains_iff_mem] at hisFirst
  obtain ⟨herror, hnew⟩ := hisFirst
  have hsnippet : (ofDiagnostic ctx (Path.relativeTo ctx.baseDir r.sourcePath) contents place d).snippet =
      (contents.map d.span.sourceLines).getD "" := by
    cases contents <;> rfl
  refine ⟨place, d, hstands, beq_iff_eq.mp herror, ?_, rfl, rfl, rfl, rfl, hsnippet, ⟨rfl, rfl, rfl⟩, rfl, rfl⟩
  -- an earlier error with this rule and span would have had the same key
  rintro earlier hlt e he hsevere ⟨hrule, hspan⟩
  have hsame : identity ctx.engine (Path.relativeTo ctx.baseDir r.sourcePath) e =
      identity ctx.engine (Path.relativeTo ctx.baseDir r.sourcePath) d := by
    unfold identity Diagnostic.ruleId
    rw [hrule, hspan]
  have hbefore : e ∈ r.warnings.take place := by
    apply List.mem_of_getElem?
    rw [List.getElem?_take_of_lt hlt, he]
  apply hnew
  unfold keyOf
  rw [← hsame]
  exact List.mem_map_of_mem (List.mem_map_of_mem (List.mem_filter.mpr ⟨hbefore, beq_iff_eq.mpr hsevere⟩))

/-- Candidates that are made result by result, with answers of the reader, are made from the errors of the
results. -/
theorem gathered_ofList {ctx : Context} {answers : String → Option String → Prop}
    {answered : List (LintResult × Option String)} (h : ∀ a ∈ answered, answers a.1.sourcePath a.2) :
    Gathered ctx answers (answered.map (·.1)) (.ofList (answered.flatMap fun a =>
      ofWarnings ctx (Path.relativeTo ctx.baseDir a.1.sourcePath) a.2 a.1.warnings)) := by
  constructor
  · rw [Batch.keys_eq, Batch.toList_ofList, Todo.keys_firsts, List.map_flatMap, List.flatMap_map]
    congr 1
    refine List.flatMap_congr fun a _ => ?_
    rw [keys_ofWarnings, errors, List.map_map]
    rfl
  · intro t ht
    rw [Batch.toList_ofList] at ht
    obtain ⟨a, ha, hfirst⟩ := Batch.exists_mem_firsts_of_flatMap ht
    obtain ⟨place, d, hcandidate⟩ := exists_isCandidate hfirst
    exact ⟨a.1, List.mem_map_of_mem ha, a.2, place, d, h a ha, hcandidate⟩

/-- Gathering makes its batch from the errors of the results, with answers that the reader may give. -/
theorem gathered_gather (ctx : Context) (read : String → ρ → Option String × ρ) (reader : ρ)
    (results : List LintResult) :
    Gathered ctx (fun path contents => ∃ reader, contents = (read path reader).1) results
      (gather ctx read reader results).batch := by
  obtain ⟨answered, hresults, hanswers, hbatch⟩ := exists_batch_foldl_takeResult ctx read results { reader }
  unfold gather
  rw [hbatch, ← hresults]
  exact gathered_ofList hanswers

/-! ## What is extracted -/

/-- A reader that goes by the path alone, and lists what it is asked for. -/
def listing (source : String → Option String) (path : String) (asked : List String) :
    Option String × List String :=
  (source path, asked ++ [path])

/-- A reader that lists what it is asked for has all of it listed in the end. -/
theorem foldl_listing (source : String → Option String) (paths asked : List String) :
    paths.foldl (fun asked path => (listing source path asked).2) asked = asked ++ paths := by
  induction paths generalizing asked with
  | nil => exact (List.append_nil asked).symm
  | cons path rest ih => rw [List.foldl_cons, ih, listing, List.append_assoc, List.singleton_append]

/-- Extracting candidates asks for the sources of the results with errors. -/
theorem extract_snd (ctx : Context) (source : String → Option String) (results : List LintResult) :
    (extract ctx source results).2 = sourcesAsked results := by
  have hresult (r : LintResult) :
      (ofResult ctx source r).2 = if r.hasLiveErrors then [r.sourcePath] else [] := by
    unfold ofResult
    dsimp only
    rw [isEmpty_filter_placed]
    cases r.hasLiveErrors <;> rfl
  unfold extract sourcesAsked
  dsimp only
  rw [List.flatMap_map]
  induction results with
  | nil => rfl
  | cons r rest ih =>
    rw [List.flatMap_cons, ih, List.filter_cons, hresult]
    split <;> rfl

/-- Extracting candidates is the pass with a reader that goes by the path alone. -/
theorem extract_eq_gather (ctx : Context) (source : String → Option String) (results : List LintResult) :
    extract ctx source results =
      ((gather ctx (listing source) [] results).batch, (gather ctx (listing source) [] results).reader) := by
  obtain ⟨answered, hresults, hanswers, hbatch⟩ :=
    exists_batch_foldl_takeResult ctx (listing source) results { reader := [] }
  have hreader := reader_foldl_takeResult ctx (listing source) results { reader := [] }
  have hlist : results.map (fun r => (r, source r.sourcePath)) = answered := by
    rw [← hresults, List.map_map]
    refine (List.map_congr_left fun a ha => ?_).trans (List.map_id answered)
    obtain ⟨reader, hanswer⟩ := hanswers a ha
    exact Prod.ext rfl hanswer.symm
  apply Prod.ext
  · unfold gather
    rw [hbatch, ← hlist, List.flatMap_map]
    unfold extract
    dsimp only
    rw [List.flatMap_map]
    simp only [ofResult_fst]
    rfl
  · unfold gather
    rw [extract_snd, hreader, foldl_listing, List.nil_append]

/-- Candidates are gathered from the errors of the results, in order, whatever the reader does: the batch has the
keys of all errors where they come first, every candidate is made from the first error of its kind in its
result, and the reader is asked once for the source of each result with errors, in order, and for nothing
else.  This is what extracting them does with a reader that goes by the path alone. -/
theorem extract_gathers (ctx : Context) (results : List LintResult) :
    (∀ {ρ : Type} (read : String → ρ → Option String × ρ) (reader : ρ),
        Gathered ctx (fun path contents => ∃ reader, contents = (read path reader).1) results
            (gather ctx read reader results).batch ∧
          (gather ctx read reader results).reader =
            (sourcesAsked results).foldl (fun reader path => (read path reader).2) reader) ∧
      ∀ source : String → Option String,
        extract ctx source results =
            ((gather ctx (listing source) [] results).batch, (gather ctx (listing source) [] results).reader) ∧
          Gathered ctx (fun path contents => contents = source path) results
            (extract ctx source results).1 ∧
          (extract ctx source results).2 = sourcesAsked results := by
  refine ⟨fun read reader => ⟨gathered_gather ctx read reader results,
    reader_foldl_takeResult ctx read results { reader }⟩,
    fun source => ⟨extract_eq_gather ctx source results, ?_, extract_snd ctx source results⟩⟩
  rw [extract_eq_gather]
  obtain ⟨hkeys, hcandidates⟩ := gathered_gather ctx (listing source) [] results
  refine ⟨hkeys, fun t ht => ?_⟩
  obtain ⟨r, hr, contents, place, d, ⟨asked, hanswer⟩, hcandidate⟩ := hcandidates t ht
  exact ⟨r, hr, contents, place, d, hanswer, hcandidate⟩

end LintDebt.Candidates
