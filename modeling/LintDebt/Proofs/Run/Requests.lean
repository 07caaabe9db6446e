import LintDebt.Proofs.Config
import LintDebt.Proofs.Ledger.Twins
import LintDebt.Proofs.Run.Formatter
import LintDebt.Proofs.Run.Simulation

/-!
# Requests after the log was written anew

Whatever is asked of a ledger, the answers do not tell whether its log was written anew before, but for one
number: the first run that only shortens the log says how many entries it has dropped, and these are fewer
by those that were dropped before.

* `LintDebt.SourceReader`: what reads the source files, which the log is not one of.
* `LintDebt.Request`, `LintDebt.Answer`: what can be asked of a ledger, and what it answers.
* `LintDebt.Request.ask_apart`: what twins answer to one request.
* `LintDebt.Agree`: answers that are the same, but for that number.
* `LintDebt.agree_answers`: what twins answer to many requests.
* `LintDebt.compact_unobservable`: nothing else tells whether the log was written anew.
-/

namespace LintDebt

open Run (compactOutcome formatter)

/-! ## Runs on twins -/

/-- What reads the source files.  It may look at all files of a ledger but for its log. -/
structure SourceReader where
  text : FileLedger → String → Option String
  passesLog : ∀ {l m : FileLedger}, m.baseDir = l.baseDir → m.today = l.today →
    FileTree.SameBut l.storagePath l.files m.files → text m = text l

namespace FileLedger

/-- Twins answer the same to what a run asks of them. -/
theorem simulates_apart (d : Nat) (o : RunOptions) (reader : SourceReader) :
    Run.Simulates (fun _ _ => True) (Apart d) o reader.text reader.text where
  configProblem := by
    rintro l m ⟨⟨live, htwins⟩, -⟩
    exact (Run.configProblem?_of_sameBut htwins.baseDir htwins.files).symm
  policy := by
    rintro l m ⟨⟨live, htwins⟩, -⟩
    exact (Run.policy_of_sameBut htwins.baseDir htwins.files _ _).symm
  hasStorage := by
    rintro l m ⟨⟨live, htwins⟩, -⟩
    show l.files.isFile l.storagePath = m.files.isFile m.storagePath
    rw [htwins.aligned.isFile_eq]
  severityCode := by
    rintro l m ⟨⟨live, htwins⟩, -⟩
    show (fun t => (l.severity t).code) = fun t => (m.severity t).code
    rw [severity_congr htwins.today]
  read := by
    rintro l m ⟨⟨live, htwins⟩, -⟩
    exact (reader.passesLog htwins.baseDir htwins.today htwins.files).symm
  write h _ _ _ := alike_write h _ _
  sortOut h _ _ _ := alike_sortOut h _ _
  clear _ _ _ _ _ _ _ _ h := alike_exchange h _ _

/-! ## Requests -/

/-- What can be asked of a ledger. -/
inductive Request where
  | live
  | write (candidates : Batch) (scope : Scope)
  | sortOut (candidates : Batch) (scope : Scope)
  | exchange (add remove : Batch)
  | run (o : RunOptions) (reader : SourceReader) (results : List LintResult)
  /-- The ledger is opened anew on a day. -/
  | reopen (today : Date)

/-- What a ledger answers. -/
inductive Answer where
  | live (outcome : Except LedgerError Batch)
  | written (outcome : Except LedgerError WriteSummary)
  | sorted (outcome : Except LedgerError Batches)
  | exchanged (outcome : Except LedgerError Unit)
  | ran (outcome : Except RunError RunOutcome)
  | opened

namespace Request

/-- What a ledger answers to a request, and the ledger that it leaves. -/
def ask : Request → FileLedger → Answer × FileLedger
  | .live, l => (FileLedger.liveTodos.run.run l).map .live id
  | .write candidates scope, l => ((FileLedger.write candidates scope).run.run l).map .written id
  | .sortOut candidates scope, l => ((FileLedger.sortOut candidates scope).run.run l).map .sorted id
  | .exchange add remove, l => ((FileLedger.exchange add remove).run.run l).map .exchanged id
  | .run o reader results, l => ((formatter o reader.text results).run.run l).map .ran id
  | .reopen today, l => (.opened, .openIn l.files l.baseDir today)

/-- Whether a request is for a run that only shortens the log. -/
def isShortening : Request → Bool
  | .run o _ _ => o.compactOnly
  | _ => false

end Request

/-- What a ledger answers to requests, one after the other. -/
def answers : FileLedger → List Request → List Answer
  | _, [] => []
  | l, r :: rest => (r.ask l).1 :: answers (r.ask l).2 rest

/-- The answers are the same up to the first run that only shortens the log and answers; this says that it
has dropped so many entries more; and then they are the same. -/
inductive Agree (d : Nat) : List Request → List Answer → List Answer → Prop
  | nil : Agree d [] [] []
  | same {r : Request} {rest : List Request} {a : Answer} {as bs : List Answer} :
    (r.isShortening = true → ∃ e, a = .ran (.error e)) → Agree d rest as bs →
      Agree d (r :: rest) (a :: as) (a :: bs)
  | shortened {o : RunOptions} {reader : SourceReader} {results : List LintResult}
    {rest : List Request} {as : List Answer} (n : Nat) : o.compactOnly = true →
      Agree d (.run o reader results :: rest) (.ran (.ok (compactOutcome (n + d) results)) :: as)
        (.ran (.ok (compactOutcome n results)) :: as)

/-- Answers are the same when no entries more are dropped. -/
theorem Agree.eq_of_zero {requests : List Request} {as bs : List Answer} (h : Agree 0 requests as bs) :
    as = bs := by
  induction h with
  | nil => rfl
  | same _ _ ih => rw [ih]
  | shortened n _ => rfl

/-- Answers are the same when no run only shortens the log. -/
theorem Agree.eq_of_all {d : Nat} {requests : List Request} {as bs : List Answer}
    (h : Agree d requests as bs) (hall : ∀ r ∈ requests, r.isShortening = false) : as = bs := by
  induction h with
  | nil => rfl
  | same _ _ ih => rw [ih fun r hr => hall r (List.mem_cons_of_mem _ hr)]
  | shortened n hcompact =>
    have hworking := hall _ List.mem_cons_self
    exact absurd (hcompact.symm.trans hworking) (by decide)

section Answers

variable {l l' m m' : FileLedger} {live : Batch} {d n : Nat} {o : RunOptions}
  {results : List LintResult}

/-- Steps that go alike give the same answer. -/
theorem same_of_alike {ε α : Type} {R : FileLedger → FileLedger → Prop}
    {x y : ExceptT ε (StateM FileLedger) α} (h : Alike R x y l m) (f : Except ε α → Answer) :
    ((x.run.run l).map f id).1 = ((y.run.run m).map f id).1 ∧
      R ((x.run.run l).map f id).2 ((y.run.run m).map f id).2 :=
  ⟨congrArg f h.1, h.2⟩

namespace Request

/-- A run that cannot be prepared leaves the ledger as it is. -/
theorem ask_of_prepare_error {reader : SourceReader} {e : RunError}
    (hprepare : Run.prepare o l = .error e) :
    (run o reader results).ask l = (.ran (.error e), l) := by
  rw [ask, Run.run_formatter_of_prepare hprepare]
  rfl

/-- A run that only shortens the log, once it is prepared, says how much was dropped. -/
theorem ask_of_compact {reader : SourceReader} {prepared : Option ReportFormat × DecayPolicy}
    (hcompact : o.compactOnly = true) (hprepare : Run.prepare o l = .ok prepared)
    (hy : Yields compact l n l') :
    (run o reader results).ask l = (.ran (.ok (compactOutcome n results)), l') := by
  have hrun : Yields (formatter o reader.text results) l _ l' :=
    (Run.yields_formatter_compact hcompact).mpr ⟨prepared, n, hprepare, hy, rfl⟩
  rw [ask, hrun]
  rfl

/-- Twins answer the same to a request and stay as far apart, unless it is a run that only shortens the log
and answers: then the log of the first loses as many entries more as it had, and they are no longer
apart. -/
theorem ask_apart (h : Apart d l m) (r : Request) :
    ((r.ask l).1 = (r.ask m).1 ∧ Apart d (r.ask l).2 (r.ask m).2 ∧
        (r.isShortening = true → ∃ e, (r.ask l).1 = .ran (.error e))) ∨
      ∃ o reader results n, r = .run o reader results ∧ o.compactOnly = true ∧
        (r.ask l).1 = .ran (.ok (compactOutcome (n + d) results)) ∧
        (r.ask m).1 = .ran (.ok (compactOutcome n results)) ∧ Apart 0 (r.ask l).2 (r.ask m).2 := by
  -- all requests but one are a step on the ledger, which twins take alike
  have halike {ε α : Type} {x : ExceptT ε (StateM FileLedger) α} {f : Except ε α → Answer}
      (hx : Alike (Apart d) x x l m) (hr : r.ask = fun l => (x.run.run l).map f id)
      (hworking : r.isShortening = false) : (r.ask l).1 = (r.ask m).1 ∧
        Apart d (r.ask l).2 (r.ask m).2 ∧
          (r.isShortening = true → ∃ e, (r.ask l).1 = .ran (.error e)) := by
    obtain ⟨hsame, hapart⟩ := same_of_alike hx f
    rw [hr]
    exact ⟨hsame, hapart, fun hshort => absurd (hworking.symm.trans hshort) (by decide)⟩
  cases r with
  | live => exact Or.inl (halike (alike_liveTodos h) rfl rfl)
  | write candidates scope =>
    exact Or.inl (halike (alike_write h candidates scope) rfl rfl)
  | sortOut candidates scope =>
    exact Or.inl (halike (alike_sortOut h candidates scope) rfl rfl)
  | exchange add remove => exact Or.inl (halike (alike_exchange h add remove) rfl rfl)
  | reopen today => exact Or.inl ⟨rfl, h.openIn today, nofun⟩
  | run o reader results =>
    have hsim := simulates_apart d o reader
    cases hcompact : o.compactOnly with
    | false =>
      have hrun := hsim.alike_formatter h hcompact results fun _ _ _ _ _ _ _ _ _ _ _ => trivial
      exact Or.inl (halike hrun rfl hcompact)
    | true =>
      -- The lengths of the logs are seen only here, and only once the run is prepared.
      have hprepare : Run.prepare o l = Run.prepare o m := hsim.prepare_eq h
      cases hp : Run.prepare o l with
      | error e =>
        rw [ask_of_prepare_error hp, ask_of_prepare_error (hprepare.symm.trans hp)]
        exact Or.inl ⟨rfl, h, fun _ => ⟨e, rfl⟩⟩
      | ok prepared =>
        obtain ⟨n, l', m', hl, hm, hafter⟩ := h.exists_compact
        rw [ask_of_compact hcompact hp hl, ask_of_compact hcompact (hprepare.symm.trans hp) hm]
        exact Or.inr ⟨o, reader, results, n, rfl, hcompact, rfl, rfl, hafter⟩

end Request

/-- What twins answer agrees. -/
theorem agree_answers (h : Apart d l m) (requests : List Request) :
    Agree d requests (l.answers requests) (m.answers requests) := by
  induction requests generalizing d l m with
  | nil => exact .nil
  | cons r rest ih =>
    rw [answers, answers]
    rcases r.ask_apart h with ⟨hsame, hapart, hfailed⟩ |
        ⟨o, reader, results, n, rfl, hcompact, hl, hm, hapart⟩
    · rw [← hsame]
      exact .same hfailed (ih hapart)
    · -- now both logs are as long as each other, so nothing tells the ledgers apart any more
      rw [hl, hm, (ih hapart).eq_of_zero]
      exact .shortened n hcompact

end Answers

end FileLedger

open FileLedger (Agree)

/-- A coherent ledger can write its log anew: it answers by how much the log has more entries than live
todos, keeps its live todos and its log, and drops nothing when it does so again at once.  Whatever is
asked of it later, it answers what it would have answered without that, but that the first run that only
shortens the log drops fewer entries by those that were dropped already. -/
theorem compact_unobservable {l : FileLedger} {live : Batch} (h : l.Coherent live) :
    ∃ entries l', l.readEntries = .ok entries ∧ live.size ≤ entries.length ∧
      Yields FileLedger.compact l (entries.length - live.size) l' ∧
      l.currentLive = .ok live ∧ l'.currentLive = .ok live ∧ l'.Coherent live ∧
      Ledger.hasStorage l' = Ledger.hasStorage l ∧
      (∃ l'', Yields FileLedger.compact l' 0 l'' ∧
        l''.files.contents? l'.storagePath = l'.files.contents? l'.storagePath) ∧
      ∀ requests, Agree (entries.length - live.size) requests (l.answers requests)
          (l'.answers requests) ∧
        ((∀ r ∈ requests, r.isShortening = false) → l'.answers requests = l.answers requests) := by
  obtain ⟨entries, hread, rfl⟩ := h.exists_readEntries
  obtain ⟨l', hy⟩ := FileLedger.exists_yields_compact hread
  obtain ⟨-, -, htwins⟩ := FileLedger.twins_compact h hy
  refine ⟨entries, l', hread, LogEntry.size_live_le entries, hy, h.currentLive_eq,
    htwins.right.currentLive_eq, htwins.right, ?_, FileLedger.exists_yields_compact_again h hy,
    fun requests => ?_⟩
  · show l'.files.isFile l'.storagePath = l.files.isFile l.storagePath
    rw [htwins.aligned.isFile_eq]
  · have hagree := FileLedger.agree_answers (FileLedger.apart_compact h hy) requests
    exact ⟨hagree, fun hall => (hagree.eq_of_all hall).symm⟩

/-- A log of a todo and of its removal. -/
def exampleRemoval : List LogEntry :=
  [⟨.add, FileLedger.exampleTodo⟩, ⟨.remove, FileLedger.exampleTodo⟩]

/-- A ledger on a log of a todo and of its removal. -/
def exampleRemoved : FileLedger :=
  .openIn { root := .directory [(".lint-todo", .file (.text (LogEntry.encode exampleRemoval)))] } ""
    FileLedger.exampleDay

/-- The log reads as it was written, and nothing is live. -/
theorem coherent_exampleRemoved :
    exampleRemoved.readEntries = .ok (exampleRemoval.map .stored) ∧ exampleRemoved.Coherent .empty := by
  have htext : exampleRemoved.files.contents? exampleRemoved.storagePath =
      some (.text (LogEntry.encode exampleRemoval)) := rfl
  have hread : exampleRemoved.readEntries = .ok (exampleRemoval.map .stored) :=
    FileLedger.readEntries_of_encode htext
  have hlive : LogEntry.live (exampleRemoval.map .stored) = .empty := by
    apply Batch.ext_toList
    have herased : (LogEntry.live (exampleRemoval.map .stored)).toList = _ :=
      Batch.toList_erase (Batch.empty.insert FileLedger.exampleTodo.stored) FileLedger.exampleTodo.key
    rw [herased, Batch.toList_insert, Batch.keys_empty, if_neg List.not_mem_nil]
    exact List.filter_eq_nil_iff.mpr fun t ht => by simp [List.mem_singleton.mp ht]
  refine ⟨hread, ?_, nofun, fun s hs => ?_⟩
  · unfold FileLedger.Reads
    rw [hread]
    exact congrArg Except.ok hlive
  · have hsame : LogEntry.encode exampleRemoval = s :=
      Contents.text.inj (Option.some.inj (htext.symm.trans hs))
    rw [← hsame]
    exact LogEntry.endsLine_encode exampleRemoval

/-- Writing the log of a todo and of its removal anew drops both entries, and a second time drops
nothing. -/
theorem compact_unobservable_of_removal :
    ∃ l', Yields FileLedger.compact exampleRemoved 2 l' ∧ l'.currentLive = .ok .empty ∧
      ∃ l'', Yields FileLedger.compact l' 0 l'' := by
  obtain ⟨hread, hcoherent⟩ := coherent_exampleRemoved
  obtain ⟨entries, l', hentries, -, hy, -, hlive, -, -, ⟨l'', hagain, -⟩, -⟩ :=
    compact_unobservable hcoherent
  obtain rfl := Except.ok.inj (hread.symm.trans hentries)
  exact ⟨l', hy, hlive, l'', hagain⟩

/-- A run that only shortens the log. -/
def exampleShortening : RunOptions :=
  { Run.exampleCheck with compactOnly := true }

/-- A reader that finds no source files. -/
def noSources : SourceReader :=
  ⟨fun _ _ => none, fun _ _ _ => rfl⟩

/-- A run that only shortens the log answers something else when the log was written anew before. -/
theorem answers_tell_compact :
    ∃ l', exampleRemoved.Coherent .empty ∧ Yields FileLedger.compact exampleRemoved 2 l' ∧
      exampleRemoved.answers [.run exampleShortening noSources []] ≠
        l'.answers [.run exampleShortening noSources []] := by
  obtain ⟨hread, hcoherent⟩ := coherent_exampleRemoved
  obtain ⟨l', hy⟩ := FileLedger.exists_yields_compact hread
  obtain ⟨hdropped, -⟩ := FileLedger.twins_compact hcoherent hy
  rw [hdropped, FileLedger.logLength_of_readEntries hread] at hy
  replace hy : Yields FileLedger.compact exampleRemoved 2 l' := hy
  obtain ⟨l'', hagain, -⟩ := FileLedger.exists_yields_compact_again hcoherent hy
  have hprepare : Run.prepare exampleShortening exampleRemoved = .ok (none, {}) := rfl
  have hprepare' : Run.prepare exampleShortening l' = .ok (none, {}) :=
    ((FileLedger.simulates_apart 2 exampleShortening noSources).prepare_eq
      (FileLedger.apart_compact hcoherent hy)).symm.trans hprepare
  refine ⟨l', hcoherent, hy, fun hsame => ?_⟩
  rw [FileLedger.answers, FileLedger.answers, FileLedger.answers, FileLedger.answers,
    FileLedger.Request.ask_of_compact rfl hprepare hy,
    FileLedger.Request.ask_of_compact rfl hprepare' hagain] at hsame
  injection hsame with hsame
  injection hsame with hsame
  have houtput := congrArg RunOutcome.output (Except.ok.inj hsame)
  exact absurd houtput (by decide)

end LintDebt
