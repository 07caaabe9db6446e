import LintDebt.Proofs.Ledger.Isolation
import LintDebt.Proofs.Run.Confinement
import LintDebt.Proofs.Run.Requests

/-!
# Runs and the todos of other engines

The runs of one engine leave the todos of all others, and answer as if there were none, as long as no todo
of another engine has the key of one of their candidates.

* `LintDebt.Run.IsCandidate`: the keys of the candidates of a run.
* `LintDebt.Run.ofOthers_formatter`: a run leaves the todos of other engines.
* `LintDebt.Run.alike_formatter_beside`: it goes alike without them.
* `LintDebt.FileLedger.Course`: runs of one engine that all answer, one after the other.
* `LintDebt.FileLedger.Beside.ask_run`, `LintDebt.FileLedger.Course.beside`: one run, and all of them.
* `LintDebt.engine_isolation`: what runs of one engine leave, and what they answer.
-/

namespace LintDebt

namespace Run

open FileLedger (Beside Within)

variable {o : RunOptions} {read : FileLedger → String → Option String} {reader : SourceReader}
  {results : List LintResult} {policy : DecayPolicy} {r : LintResult} {l l' m : FileLedger}
  {live before after : Batch} {out : RunOutcome} {foreign : List Todo}

/-- A key is that of a candidate of a run: that of an error of a result with a source, as the result stands
when it is its turn. -/
def IsCandidate (o : RunOptions) (read : FileLedger → String → Option String)
    (results : List LintResult) (l : FileLedger) (key : String) : Prop :=
  ∃ policy i p l₁ r, Config.load l.files l.baseDir o.engine o.overrides = .ok policy ∧
    i < results.length ∧
      Yields ((List.range i).foldlM (advance o policy read) { results }) l p l₁ ∧
        p.results[i]? = some r ∧ r.sourcePath.isEmpty = false ∧ (errorKeys o r).contains key = true

/-! ## What is left -/

/-- The work on a file leaves the todos of other engines whose keys are not those of its errors. -/
theorem Left.ofOthers (h : Left o l r before after)
    (hkeys : r.sourcePath.isEmpty = false → ∀ t ∈ before.ofOthers o.engine,
      (errorKeys o r).contains t.key = false) :
    after.ofOthers o.engine = before.ofOthers o.engine := by
  rcases h with rfl | ⟨hsource, added, hadded, hlist⟩
  · rfl
  · have hnone : added.filter (fun t => !(t.engine == o.engine)) = [] := by
      apply List.filter_eq_nil_iff.mpr
      intro t ht
      rw [(Bool.and_eq_true_iff.mp (hadded t ht)).1]
      exact Bool.false_ne_true
    rw [Batch.ofOthers, hlist, List.filter_append, hnone, List.append_nil, List.filter_filter]
    apply List.filter_congr
    intro t ht
    cases hother : t.engine == o.engine with
    | true => rfl
    | false =>
      have hkey := hkeys hsource t (Batch.mem_ofOthers.mpr ⟨ht, beq_eq_false_iff_ne.mp hother⟩)
      rw [drops, hkey, hother]
      simp

/-- A run leaves the todos of other engines as they are, when none has the key of a candidate. -/
theorem ofOthers_formatter (h : l.currentLive = .ok live)
    (hapart : o.compactOnly = false →
      ∀ t ∈ live.ofOthers o.engine, ¬ IsCandidate o read results l t.key)
    (hfaithful : o.compactOnly = true → l.Faithful)
    (hy : Yields (formatter o read results) l out l') :
    ∃ live', l'.currentLive = .ok live' ∧ live'.ofOthers o.engine = live.ofOthers o.engine := by
  cases hcompact : o.compactOnly with
  | true =>
    obtain ⟨_, n, -, hshort, -⟩ := (yields_formatter_compact hcompact).mp hy
    exact ⟨live, (hfaithful hcompact).currentLive_compact h hshort, rfl⟩
  | false =>
    obtain ⟨policy, p, hload, hfiles, -⟩ := yields_formatter hcompact hy
    refine (live_files (P := fun b => b.ofOthers o.engine = live.ofOthers o.engine) h rfl ?_ hfiles).2
    intro i q l₁ r before after hi hfirst hr hbefore hleft
    refine (hleft.ofOthers fun hsource t ht => ?_).trans hbefore
    rw [hbefore] at ht
    rw [← Bool.not_eq_true]
    exact fun hkey => hapart hcompact t ht ⟨policy, i, q, l₁, r, hload, hi, hfirst, hr, hsource, hkey⟩

/-! ## What is answered -/

/-- The candidates of a result are within the engine of the run, when no todo of another engine has the key of
one of its errors. -/
theorem within_extract (hkeys : ∀ t ∈ foreign, (errorKeys o r).contains t.key = false) :
    Within o.engine foreign (Candidates.extract ⟨o.baseDir, o.engine, policy⟩ (read l) [r]).1
      ⟨o.engine, Path.relativeTo o.baseDir r.sourcePath, policy⟩ := by
  rw [Candidates.extract_singleton]
  refine ⟨rfl, ?_, ?_⟩
  · intro c hc
    rw [Batch.toList_ofList, Candidates.firsts_ofWarnings] at hc
    obtain ⟨first, -, rfl⟩ := List.mem_map.mp hc
    rfl
  · intro t ht
    exact (contains_candidatesOf t.key).trans (hkeys t ht)

/-- What a run of an engine asks, a ledger answers alike without the todos of other engines. -/
theorem simulates_beside (shortening : Prop) (foreign : List Todo) (o : RunOptions) (reader : SourceReader) :
    Simulates (Within o.engine foreign) (Beside shortening o.engine foreign) o reader.text reader.text where
  configProblem h := (configProblem?_of_sameBut h.aligned.baseDir h.aligned.files).symm
  policy h := (policy_of_sameBut h.aligned.baseDir h.aligned.files _ _).symm
  hasStorage h := h.aligned.isFile_eq.symm
  severityCode {l m} h := by
    show (fun t => (l.severity t).code) = fun t => (m.severity t).code
    rw [FileLedger.severity_congr h.aligned.today]
  read h := (reader.passesLog h.aligned.baseDir h.aligned.today h.aligned.files).symm
  write h _ _ hwithin := FileLedger.alike_write_beside h hwithin
  sortOut h _ _ hwithin := FileLedger.alike_sortOut_beside h hwithin
  clear h _ _ hwithin _ _ _ hsort h' := FileLedger.alike_clear_beside h hwithin hsort h'

/-- A run goes alike without the todos of other engines, when none of them has the key of a candidate. -/
theorem alike_formatter_beside {shortening : Prop} (h : Beside shortening o.engine foreign l m)
    (hcompact : o.compactOnly = false) (hapart : ∀ t ∈ foreign, ¬ IsCandidate o reader.text results l t.key) :
    Alike (Beside shortening o.engine foreign) (formatter o reader.text results)
      (formatter o reader.text results) l m := by
  refine (simulates_beside shortening foreign o reader).alike_formatter h hcompact results ?_
  intro format policy hprepared i p l₁ r hi hfirst hr hsource
  apply within_extract
  intro t ht
  rw [← Bool.not_eq_true]
  exact fun hkey => hapart t ht
    ⟨policy, i, p, l₁, r, load_of_prepare hprepared, hi, hfirst, hr, hsource, hkey⟩

end Run

/-! ## Many runs -/

namespace FileLedger

open Run (IsCandidate formatter)

variable {engine : String} {foreign : List Todo} {l l' m : FileLedger} {live : Batch} {o : RunOptions}
  {reader : SourceReader} {results : List LintResult} {out : RunOutcome} {requests : List Request}

/-- Runs of one engine that all answer, one after the other.  Where a run does more than shorten the log, no live
todo of another engine has the key of a candidate. -/
inductive Course (engine : String) : FileLedger → List Request → FileLedger → Prop
  | nil (l : FileLedger) : Course engine l [] l
  | run {l l' l'' : FileLedger} {o : RunOptions} {reader : SourceReader} {results : List LintResult}
    {out : RunOutcome} {requests : List Request} : o.engine = engine →
      (o.compactOnly = false → ∀ live, l.currentLive = .ok live →
        ∀ t ∈ live.ofOthers engine, ¬ IsCandidate o reader.text results l t.key) →
      Yields (formatter o reader.text results) l out l' →
        Course engine l' requests l'' → Course engine l (.run o reader results :: requests) l''

/-- Some of the requests are for a run that only shortens the log. -/
def Shortens (requests : List Request) : Prop :=
  ∃ r ∈ requests, r.isShortening = true

/-- When requests shorten the log, so do those of which they are the last. -/
theorem Shortens.cons (h : Shortens requests) (r : Request) : Shortens (r :: requests) := by
  obtain ⟨s, hs, hshortening⟩ := h
  exact ⟨s, List.mem_cons_of_mem r hs, hshortening⟩

/-- A run that only shortens the log is one of the requests that it is the first of. -/
theorem shortens_of_compactOnly (hcompact : o.compactOnly = true) :
    Shortens (.run o reader results :: requests) :=
  ⟨_, List.mem_cons_self, hcompact⟩

/-- A run of an engine leaves ledgers side by side that were so before, and both answer the same unless it
only shortens the log. -/
theorem Beside.ask_run {shortening : Prop} (h : Beside shortening o.engine foreign l m)
    (hapart : o.compactOnly = false → ∀ t ∈ foreign, ¬ IsCandidate o reader.text results l t.key)
    (hshort : o.compactOnly = true → shortening ∧ l.Faithful)
    (hy : Yields (formatter o reader.text results) l out l') :
    (o.compactOnly = false → ((Request.run o reader results).ask m).1 = .ran (.ok out)) ∧
      Beside shortening o.engine foreign l' ((Request.run o reader results).ask m).2 := by
  cases hcompact : o.compactOnly with
  | false =>
    obtain ⟨hsame, hafter⟩ := Run.alike_formatter_beside h hcompact (hapart hcompact)
    rw [show (formatter o reader.text results).run.run l = (.ok out, l') from hy] at hsame hafter
    exact ⟨fun _ => congrArg Answer.ran hsame.symm, hafter⟩
  | true =>
    obtain ⟨hshortening, hfaithful⟩ := hshort hcompact
    obtain ⟨prepared, n, hprepared, hdropped, -⟩ := (Run.yields_formatter_compact hcompact).mp hy
    obtain ⟨n', m', hdropped', hafter⟩ := h.compact hshortening hfaithful hdropped
    have hprepared' := (Run.prepare_of_sameBut h.aligned.baseDir h.aligned.files o).trans hprepared
    rw [Request.ask_of_compact hcompact hprepared' hdropped']
    exact ⟨nofun, hafter⟩

/-- Runs of an engine leave the todos of other engines as they are. -/
theorem Course.ofOthers (h : Course engine l requests l') (hcurrent : l.currentLive = .ok live)
    (hfaithful : Shortens requests → l.Faithful) :
    ∃ live', l'.currentLive = .ok live' ∧ live'.ofOthers engine = live.ofOthers engine := by
  induction h generalizing live with
  | nil l => exact ⟨live, hcurrent, rfl⟩
  | run hengine hapart hy _ ih =>
    subst hengine
    obtain ⟨live₁, hcurrent₁, hsame⟩ := Run.ofOthers_formatter hcurrent
      (fun hcompact => hapart hcompact live hcurrent) (fun hcompact => hfaithful (shortens_of_compactOnly hcompact)) hy
    obtain ⟨live', hcurrent', hsame'⟩ := ih hcurrent₁ fun hrest =>
      (Run.ends_formatter invariant_faithful (hfaithful (hrest.cons _)) _ _ _).of_yields hy
    exact ⟨live', hcurrent', hsame'.trans hsame⟩

/-- Without the todos of other engines, the runs of an engine answer the same, but for those that only
shorten the log. -/
theorem Course.answers_eq {shortening : Prop} (h : Course engine l requests l')
    (hbeside : Beside shortening engine foreign l m) (hshort : Shortens requests → shortening ∧ l.Faithful) :
    ∀ (i : Nat) (r : Request), requests[i]? = some r → r.isShortening = false →
      (m.answers requests)[i]? = (l.answers requests)[i]? := by
  induction h generalizing m with
  | nil l => exact fun _ _ _ _ => rfl
  | @run l l₁ l' o reader results out requests hengine hapart hy _ ih =>
    subst hengine
    obtain ⟨live, hcurrent, hforeign, -⟩ := hbeside.live
    obtain ⟨hsame, hafter⟩ := hbeside.ask_run (fun hcompact => hforeign ▸ hapart hcompact live hcurrent)
      (fun hcompact => hshort (shortens_of_compactOnly hcompact)) hy
    have hask : (Request.run o reader results).ask l = (.ran (.ok out), l₁) := by
      rw [Request.ask, show (formatter o reader.text results).run.run l = (.ok out, l₁) from hy]
      rfl
    intro i r hr hworking
    rw [answers, answers, hask]
    cases i with
    | zero =>
      obtain rfl : Request.run o reader results = r := Option.some.inj hr
      exact congrArg some (hsame hworking)
    | succ i =>
      refine ih hafter (fun hrest => ?_) i r hr hworking
      obtain ⟨hshortening, hfaithful⟩ := hshort (hrest.cons _)
      exact ⟨hshortening, (Run.ends_formatter invariant_faithful hfaithful _ _ _).of_yields hy⟩

end FileLedger

open FileLedger (Beside Course Shortens)
open Run (formatter)

/-- The example todo as one of another engine. -/
def exampleForeign : Todo :=
  { FileLedger.exampleTodo with engine := "eslint" }

/-- A log in which two engines have the same todo. -/
def exampleShared : FileLedger :=
  .openIn { root := .directory [(".lint-todo", .file (.text (LogEntry.encode
    [⟨.add, exampleForeign⟩, ⟨.add, FileLedger.exampleTodo⟩])))] } "" FileLedger.exampleDay

/-- The live todos of that log. -/
def exampleSharedLive : Batch :=
  LogEntry.live [⟨.add, exampleForeign⟩, ⟨.add, FileLedger.exampleTodo⟩]

/-- The log reads as its live todos. -/
theorem reads_exampleShared : exampleShared.Reads exampleSharedLive :=
  FileLedger.reads_of_encode rfl

/-- One of them is of the other engine. -/
theorem ofOthers_exampleSharedLive :
    exampleSharedLive.ofOthers "stylelint" = [exampleForeign.stored] := by
  show (((Batch.empty.insert exampleForeign.stored).insert FileLedger.exampleTodo.stored).ofOthers
    "stylelint") = _
  have hfirst : (Batch.empty.insert exampleForeign.stored).toList = [exampleForeign.stored] :=
    (Batch.toList_insert .empty _).trans (if_neg List.not_mem_nil)
  rw [Batch.ofOthers, Batch.toList_insert, hfirst]
  split <;> rfl

/-- The example result whose error is gone has no candidates. -/
theorem not_isCandidate_exampleFixed (l : FileLedger) (key : String) :
    ¬ Run.IsCandidate Run.exampleCheck noSources.text [Run.exampleFixed] l key := by
  rintro ⟨policy, i, p, l₁, r, -, hi, hfirst, hr, -, hkey⟩
  obtain rfl : i = 0 := Nat.lt_one_iff.mp hi
  obtain ⟨rfl, -⟩ := yields_pure.mp hfirst
  obtain rfl : Run.exampleFixed = r := Option.some.inj hr
  cases hkey

/-- A ledger that remembers a todo of another engine, though its log holds another todo instead. -/
def exampleStale : FileLedger :=
  { FileLedger.openIn FileLedger.exampleFiles "" FileLedger.exampleDay with
    cache := some (LogEntry.live [⟨.add, exampleForeign⟩]) }

end LintDebt
