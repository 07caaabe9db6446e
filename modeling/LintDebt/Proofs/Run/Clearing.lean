import LintDebt.Proofs.Run.Repetition

/-!
# The first update of a directory

On a directory without a log, and without a configuration, an update makes a todo of every error that is the
first with its key, and this error then weighs as a todo.  An error whose key has come before gets no todo of
its own, since there is one for the key already, and so it stays an error.

* `LintDebt.Run.earlierKeys`: the keys of the errors that stand before a diagnostic.
* `LintDebt.Run.nodup_errorKeys_iff`: when no key comes twice.
* `LintDebt.Run.Seeded`: after its first files, the update has made one todo of every key, for the first file
  with an error of this key.
* `LintDebt.Run.Seeded.add`, `LintDebt.Run.seeded_files`: one more file, and all of them.
* `LintDebt.Run.Seeded.asked_iff`: of the errors with one key, the first is the one that gets its severity
  from the todo.
* `LintDebt.Run.Seeded.severityAt?_judged`, `LintDebt.Run.Seeded.anyErrored_judged`: the severities that the
  todos leave, and when none is that of an error.
* `LintDebt.Run.formatter_clears_first`: the severities in the end.
* `LintDebt.Run.formatter_leaves_second`: an error that comes twice.
-/

namespace LintDebt.Run

open Candidates (keyOf firstErrors isFirst)

variable {o : RunOptions} {policy : DecayPolicy} {contents : Option String} {r : LintResult}
  {read : FileLedger → String → Option String} {results : List LintResult} {l l' : FileLedger}
  {live after : Batch} {changes : Changes} {p : Progress} {n i place : Nat} {d : Diagnostic}
  {key : String} {out : RunOutcome}

/-! ## Keys that come twice -/

/-- Parts are without repetition together when each is so by itself and has nothing in common with those before
it. -/
theorem nodup_flatMap_iff {α β : Type} {f : α → List β} {xs : List α} :
    (xs.flatMap f).Nodup ↔
      ∀ i x, xs[i]? = some x → (f x).Nodup ∧ ∀ b ∈ f x, b ∉ (xs.take i).flatMap f := by
  induction xs using List.reverseRecOn with
  | nil => simp
  | append_singleton xs x ih =>
    rw [List.flatMap_append, List.flatMap_singleton, List.nodup_append, ih]
    constructor
    · rintro ⟨hfirst, hlast, hapart⟩ i y hy
      rcases Nat.lt_or_ge i xs.length with hlt | hge
      · rw [List.getElem?_append_left hlt] at hy
        rw [List.take_append_of_le_length (Nat.le_of_lt hlt)]
        exact hfirst i y hy
      · have hlt := (List.getElem?_eq_some_iff.mp hy).1
        rw [List.length_append, List.length_singleton] at hlt
        obtain rfl : i = xs.length := by omega
        rw [List.getElem?_concat_length] at hy
        obtain rfl := Option.some.inj hy
        rw [List.take_left' rfl]
        exact ⟨hlast, fun b hb hbefore => hapart b hbefore b hb rfl⟩
    · intro h
      have hlast := h xs.length x (by simp)
      rw [List.take_left' rfl] at hlast
      refine ⟨fun i y hy => ?_, hlast.1, fun a ha b hb hab => hlast.2 b hb (hab ▸ ha)⟩
      have hlt := (List.getElem?_eq_some_iff.mp hy).1
      have hold := h i y (by rw [List.getElem?_append_left hlt, hy])
      rwa [List.take_append_of_le_length (Nat.le_of_lt hlt)] at hold

/-- The keys of the errors among the diagnostics of a file. -/
theorem map_key_errors (engine filePath : String) (warnings : List Diagnostic) :
    (Candidates.errors engine filePath warnings).map Todo.key =
      warnings.flatMap fun d => if d.isError then [keyOf engine filePath d] else [] := by
  induction warnings with
  | nil => rfl
  | cons d rest ih =>
    rw [List.flatMap_cons, ← ih, Candidates.errors, Candidates.errors, List.filter_cons]
    split <;> rfl

/-- The keys of the errors that stand before a diagnostic: those of the results before its own, and those before
it in its own. -/
def earlierKeys (o : RunOptions) (results : List LintResult) (i : Nat) (r : LintResult) (place : Nat) :
    List String :=
  (results.take i).flatMap (errorKeys o) ++
    (Candidates.errors o.engine (r.path o.baseDir) (r.warnings.take place)).map Todo.key

/-- No key comes twice when every error has another key than all before it. -/
theorem nodup_errorKeys_iff : (results.flatMap (errorKeys o)).Nodup ↔
    ∀ i r place d, results[i]? = some r → r.warnings[place]? = some d → d.isError = true →
      keyOf o.engine (r.path o.baseDir) d ∉ earlierKeys o results i r place := by
  have hkeys (r : LintResult) : errorKeys o r = r.warnings.flatMap fun d =>
      if d.isError then [keyOf o.engine (r.path o.baseDir) d] else [] := map_key_errors _ _ _
  rw [nodup_flatMap_iff]
  constructor
  · intro h i r place d hi hplace herror hearlier
    obtain ⟨hown, hothers⟩ := h i r hi
    rw [hkeys, nodup_flatMap_iff] at hown
    rcases List.mem_append.mp hearlier with hbefore | hbefore
    · refine hothers _ ?_ hbefore
      rw [hkeys, List.mem_flatMap]
      exact ⟨d, List.mem_of_getElem? hplace, by simp [herror]⟩
    · rw [map_key_errors] at hbefore
      exact (hown place d hplace).2 _ (by simp [herror]) hbefore
  · intro h i r hi
    constructor
    · rw [hkeys, nodup_flatMap_iff]
      intro place d hplace
      cases herror : d.isError with
      | false => simp
      | true =>
        refine ⟨by simp, fun key hkey hbefore => ?_⟩
        rw [← map_key_errors] at hbefore
        obtain rfl : key = keyOf o.engine (r.path o.baseDir) d := by simpa using hkey
        exact h i r place d hi hplace herror (List.mem_append_right _ hbefore)
    · intro key hkey hbefore
      rw [hkeys, List.mem_flatMap] at hkey
      obtain ⟨d, hd, hin⟩ := hkey
      obtain ⟨place, hplace⟩ := List.mem_iff_getElem?.mp hd
      split at hin
      · next herror =>
        obtain rfl := List.mem_singleton.mp hin
        exact h i r place d hi hplace herror (List.mem_append_left _ hbefore)
      · cases hin

/-- The first error of a file with its key, which no file before has, is one whose key has not come before. -/
theorem isFirst_and_iff : d.isError = true ∧
    keyOf o.engine (r.path o.baseDir) d ∉ earlierKeys o results i r place ↔
      isFirst o.engine (r.path o.baseDir) r.warnings place d = true ∧
        keyOf o.engine (r.path o.baseDir) d ∉ (results.take i).flatMap (errorKeys o) := by
  rw [earlierKeys, List.mem_append, isFirst, Bool.and_eq_true_iff, Bool.not_eq_true', ← Bool.not_eq_true,
    List.contains_iff_mem]
  tauto

/-! ## The todos -/

/-- What an update has made live after its first files: a todo without dates for every key of their errors, and
it is one of the first file with an error of this key. -/
structure Seeded (o : RunOptions) (results : List LintResult) (n : Nat) (live : Batch) : Prop where
  undated : ∀ t ∈ live.toList, t.warnDate = none ∧ t.errorDate = none
  owned : ∀ t ∈ live.toList, ∃ i r, i < n ∧ results[i]? = some r ∧ t.filePath = r.path o.baseDir ∧
    t.key ∈ errorKeys o r ∧ t.key ∉ (results.take i).flatMap (errorKeys o)
  recorded : ∀ key ∈ (results.take n).flatMap (errorKeys o), live.contains key = true

/-- The work on one more file leaves the todos of the earlier ones, and puts the new ones of the file behind
them. -/
theorem Seeded.toList_add (h : Seeded o results n live) (hdiffer : FilesDiffer o results)
    (hr : results[n]? = some r) (hworked : Worked o {} l live contents r after changes) :
    after.toList = live.toList ++ newTodos o {} l live contents r := by
  have hpath := hdiffer.paths r (List.mem_of_getElem? hr)
  rw [hworked.left]
  congr 1
  · rw [List.filter_eq_self]
    intro t ht
    obtain ⟨i, s, hi, hs, hfile, -⟩ := h.owned t ht
    have hmem : s ∈ results.take n := by
      rw [List.mem_iff_getElem?]
      exact ⟨i, by rw [List.getElem?_take_of_lt hi, hs]⟩
    have hne : (t.filePath == r.path o.baseDir) = false := by
      rw [hfile, beq_eq_false_iff_ne]
      exact path_ne_of_mem_take hdiffer.nodup_paths hr hmem
    rw [drops, covers_of_path hpath, hne]
    rfl
  · rw [List.filter_eq_self]
    intro t ht
    rw [(severity_of_undated (undated_of_mem_newTodos ht)).1, Bool.and_false]
    rfl

/-- An update makes the todos of one more file. -/
theorem Seeded.add (h : Seeded o results n live) (hdiffer : FilesDiffer o results)
    (hupdating : o.updating = true) (hr : results[n]? = some r)
    (hworked : Worked o {} l live contents r after changes) : Seeded o results (n + 1) after := by
  have hlist := h.toList_add hdiffer hr hworked
  refine ⟨?_, ?_, ?_⟩
  · intro t ht
    rw [hlist] at ht
    rcases List.mem_append.mp ht with hold | hnew
    · exact h.undated t hold
    · exact undated_of_mem_newTodos hnew
  · intro t ht
    rw [hlist] at ht
    rcases List.mem_append.mp ht with hold | hnew
    · obtain ⟨i, s, hi, howned⟩ := h.owned t hold
      exact ⟨i, s, Nat.lt_succ_of_lt hi, howned⟩
    · obtain ⟨hconcerns, hkey⟩ := mem_newTodos hnew
      refine ⟨n, r, Nat.lt_succ_self n, hr, ?_, List.contains_iff_mem.mp hkey, ?_⟩
      · exact beq_iff_eq.mp (Bool.and_eq_true_iff.mp hconcerns).2
      · intro hbefore
        have hin := h.recorded _ hbefore
        rw [contains_of_mem_newTodos hnew] at hin
        cases hin
  · intro key hkey
    obtain ⟨hlt, rfl⟩ := List.getElem?_eq_some_iff.mp hr
    rw [List.take_succ_eq_append_getElem hlt, List.flatMap_append, List.flatMap_singleton,
      List.mem_append] at hkey
    rw [Batch.contains_iff, hlist, List.map_append, List.mem_append, ← Batch.contains_iff]
    by_cases hin : live.contains key = true
    · exact .inl hin
    · have hown : (errorKeys o results[n]).contains key = true :=
        List.contains_iff_mem.mpr (hkey.resolve_left fun hbefore => hin (h.recorded key hbefore))
      obtain ⟨w, k, hfirst, rfl⟩ := exists_mem_firstErrors hown
      right
      unfold newTodos
      rw [if_pos hupdating, List.map_map, List.mem_map]
      exact ⟨(w, k), List.mem_filter.mpr ⟨hfirst, by simp [Bool.eq_false_iff.mpr hin]⟩, rfl⟩

/-- An update on a directory without todos and without windows has made these todos after its first files. -/
theorem seeded_files (hupdating : o.updating = true) (hdiffer : FilesDiffer o results)
    (h : l.Shows live) (hempty : live.toList = []) (hn : n ≤ results.length)
    (hy : Yields ((List.range n).foldlM (advance o {} read) { results }) l p l') :
    ∃ live', Updated o results n l' live' p ∧ Seeded o results n live' := by
  induction n generalizing p l' with
  | zero =>
    obtain ⟨rfl, rfl⟩ := yields_pure.mp hy
    have hnone {P : Todo → Prop} : ∀ t ∈ live.toList, P t := by
      intro t ht
      rw [hempty] at ht
      cases ht
    exact ⟨live, ⟨h, rfl, nofun⟩, hnone, hnone, nofun⟩
  | succ n ih =>
    obtain ⟨q, l₁, hfirst, hlast⟩ := yields_foldlM_range_succ.mp hy
    obtain ⟨live₁, hupdated, hseeded⟩ := ih (Nat.le_of_succ_le hn) hfirst
    have hr : results[n]? = some results[n] := List.getElem?_eq_getElem hn
    have hpath := hdiffer.paths results[n] (List.getElem_mem hn)
    obtain ⟨step, hstep, rfl⟩ := (hupdated.yields_advance hn).mp hlast
    obtain ⟨after, hshows, hworked⟩ :=
      shows_worked hupdated.shows (LintResult.sourcePath_isEmpty hpath) hstep
    obtain ⟨live', hupdated'⟩ := updated_files hupdating hdiffer h hn hy
    obtain rfl : after = live' :=
      Except.ok.inj (hshows.current.symm.trans hupdated'.shows.current)
    exact ⟨after, hupdated', hseeded.add hdiffer hupdating hr hworked⟩

/-! ## The severities -/

/-- The todos ask for the severity of a diagnostic when it is an error and its key has not come before. -/
theorem Seeded.asked_iff (h : Seeded o results results.length live) (hdiffer : FilesDiffer o results)
    (hi : results[i]? = some r) (hplace : r.warnings[place]? = some d) :
    (∃ a ∈ askedOf o l live.toList r, a.origin = place) ↔ d.isError = true ∧
      keyOf o.engine (r.path o.baseDir) d ∉ earlierKeys o results i r place := by
  have hpath := hdiffer.paths r (List.mem_of_getElem? hi)
  rw [isFirst_and_iff, ← @demotionsOf_eq_askedOf o {} none]
  constructor
  · rintro ⟨a, ha, rfl⟩
    obtain ⟨t, ht, hcovers, -, w, k, hfirst, hkey, rfl⟩ := mem_demotionsOf.mp ha
    obtain ⟨hat, hfirst⟩ := Candidates.mem_firstErrors.mp hfirst
    obtain rfl := Option.some.inj (hat.symm.trans hplace)
    refine ⟨hfirst, ?_⟩
    -- the todo is one of this file, which is therefore the first with an error of its key
    obtain ⟨j, s, hj, hs, hfile, -, hfresh⟩ := h.owned t ht
    rw [covers_scopeOf, covers_of_path hpath, beq_iff_eq] at hcovers
    have hsame : i = j := by
      have hlt : i < (results.map (LintResult.path o.baseDir)).length := by
        rw [List.length_map]
        exact (List.getElem?_eq_some_iff.mp hi).1
      apply (List.getElem?_inj hlt hdiffer.nodup_paths).mp
      rw [List.getElem?_map, List.getElem?_map, hi, hs, Option.map_some, Option.map_some, ← hfile, hcovers]
    rw [hkey, hsame]
    exact hfresh
  · rintro ⟨hfirst, hfresh⟩
    have hmem := Candidates.mem_firstErrors.mpr ⟨hplace, hfirst⟩
    have hkey := List.contains_iff_mem.mp (contains_keyOf_of_mem_firstErrors hmem)
    have hall : keyOf o.engine (r.path o.baseDir) d ∈ (results.take results.length).flatMap (errorKeys o) := by
      rw [List.take_length, List.mem_flatMap]
      exact ⟨r, List.mem_of_getElem? hi, hkey⟩
    obtain ⟨t, ht, hsame⟩ := List.mem_map.mp (Batch.contains_iff.mp (h.recorded _ hall))
    obtain ⟨j, s, hj, hs, hfile, hin, hnone⟩ := h.owned t ht
    rw [hsame] at hin hnone
    have hbefore {a b : Nat} {u : LintResult} (hu : results[a]? = some u) (hab : a < b)
        (hkey : keyOf o.engine (r.path o.baseDir) d ∈ errorKeys o u) :
        keyOf o.engine (r.path o.baseDir) d ∈ (results.take b).flatMap (errorKeys o) := by
      refine List.mem_flatMap.mpr ⟨u, List.mem_iff_getElem?.mpr ⟨a, ?_⟩, hkey⟩
      rw [List.getElem?_take_of_lt hab, hu]
    obtain rfl : j = i := by
      rcases Nat.lt_trichotomy j i with hlt | heq | hgt
      · exact absurd (hbefore hs hlt hin) hfresh
      · exact heq
      · exact absurd (hbefore hi hgt hkey) hnone
    obtain rfl := Option.some.inj (hs.symm.trans hi)
    have hexp := (severity_of_undated (l := l) (h.undated t ht)).1
    refine ⟨⟨t.filePath, place, l.severity t⟩, ?_, rfl⟩
    refine mem_demotionsOf.mpr ⟨t, ht, ?_, hexp, d, place, hmem, hsame.symm, rfl⟩
    rw [covers_scopeOf, covers_of_path hpath, hfile, beq_self_eq_true]

/-- The severity of a diagnostic once the todos have given theirs. -/
theorem Seeded.getElem?_judged (h : Seeded o results results.length live)
    (hdiffer : FilesDiffer o results) (hi : results[i]? = some r) (place : Nat) :
    (judged o l live.toList r).warnings[place]? = r.warnings[place]?.map fun d =>
      if d.isError && !(earlierKeys o results i r place).contains (keyOf o.engine (r.path o.baseDir) d)
      then { d with severity := .todo } else d := by
  let asked := askedOf o l live.toList r
  have htodo : ∀ a ∈ asked, a.severity = .todo := by
    intro a ha
    rw [show asked = _ from (@demotionsOf_eq_askedOf o {} none r l live.toList).symm] at ha
    obtain ⟨t, ht, -, -, w, k, -, -, rfl⟩ := mem_demotionsOf.mp ha
    exact (severity_of_undated (h.undated t ht)).2
  show (asked.foldl Changes.demoteAt r.warnings)[place]? = _
  rw [Changes.getElem?_foldl_demoteAt
    (fun k => if asked.any (·.origin == k) then some .todo else none)]
  · apply Option.map_congr
    intro d hd
    have hasked := h.asked_iff (l := l) hdiffer hi hd
    have hany : asked.any (·.origin == place) = true ↔ ∃ a ∈ asked, a.origin = place := by simp
    rw [show (d.isError && !(earlierKeys o results i r place).contains _) = asked.any (·.origin == place) by
      rw [Bool.eq_iff_iff, hany, hasked]; simp]
    split <;> rfl
  · intro a ha
    have hany : asked.any (·.origin == a.origin) = true := List.any_eq_true.mpr ⟨a, ha, beq_self_eq_true _⟩
    rw [if_pos hany, htodo a ha]
  · intro k s hs
    split at hs
    · next hany => simpa using hany
    · cases hs

/-- No result is flagged when no diagnostic is an error. -/
theorem errored_eq_false_iff {rs : List LintResult} :
    LintResult.anyErrored (LintResult.settleAll rs) = false ↔
      ∀ i place, severityAt? (LintResult.settleAll rs) i place ≠ some .error := by
  simp only [LintResult.anyErrored, LintResult.settleAll, List.any_map, List.any_eq_false, severityAt?,
    List.getElem?_map, ne_eq, Option.map_eq_some_iff, Option.bind_eq_some_iff]
  constructor
  · rintro hnone i place ⟨d, ⟨r', ⟨r, hi, rfl⟩, hplace⟩, herror⟩
    apply hnone r (List.mem_of_getElem? hi)
    exact List.any_eq_true.mpr ⟨d, List.mem_of_getElem? hplace, beq_iff_eq.mpr herror⟩
  · intro hnone r hr hany
    obtain ⟨i, hi⟩ := List.mem_iff_getElem?.mp hr
    obtain ⟨d, hd, herror⟩ := List.any_eq_true.mp hany
    obtain ⟨place, hplace⟩ := List.mem_iff_getElem?.mp hd
    exact hnone i place ⟨d, ⟨r.settle, ⟨r, hi, rfl⟩, hplace⟩, beq_iff_eq.mp herror⟩

/-- The severity of a diagnostic of the results once the todos have given theirs. -/
theorem Seeded.severityAt?_judged (h : Seeded o results results.length live)
    (hdiffer : FilesDiffer o results) (i place : Nat) :
    severityAt? (LintResult.settleAll (results.map (judged o l live.toList))) i place =
      results[i]?.bind fun r => r.warnings[place]?.map fun d => if d.isError &&
          !(earlierKeys o results i r place).contains (keyOf o.engine (r.path o.baseDir) d)
        then .todo else d.severity := by
  rw [severityAt?, LintResult.settleAll, List.map_map, List.getElem?_map]
  cases hi : results[i]? with
  | none => rfl
  | some r =>
    rw [Option.map_some, Option.bind_some, Option.bind_some, Function.comp_apply, warnings_settle,
      h.getElem?_judged hdiffer hi, Option.map_map]
    apply Option.map_congr
    intro d _
    rw [Function.comp_apply]
    split <;> rfl

/-- Once the todos have given their severities, no error is left exactly when no key comes twice. -/
theorem Seeded.anyErrored_judged (h : Seeded o results results.length live)
    (hdiffer : FilesDiffer o results) :
    LintResult.anyErrored (LintResult.settleAll (results.map (judged o l live.toList))) = false ↔
      (results.flatMap (errorKeys o)).Nodup := by
  rw [errored_eq_false_iff, nodup_errorKeys_iff]
  constructor
  · intro hnone i r place d hi hplace herror hkey
    apply hnone i place
    rw [h.severityAt?_judged hdiffer, hi, Option.bind_some, hplace, Option.map_some,
      List.contains_iff_mem.mpr hkey, Bool.not_true, Bool.and_false, if_neg Bool.false_ne_true,
      beq_iff_eq.mp herror]
  · intro hfresh i place hsome
    rw [h.severityAt?_judged hdiffer, Option.bind_eq_some_iff] at hsome
    obtain ⟨r, hi, hsome⟩ := hsome
    obtain ⟨d, hplace, hsome⟩ := Option.map_eq_some_iff.mp hsome
    split at hsome
    · cases hsome
    · next hkept =>
      have herror : d.isError = true := beq_iff_eq.mpr hsome
      have hkey := hfresh i r place d hi hplace herror
      rw [← List.contains_iff_mem, Bool.not_eq_true] at hkey
      rw [herror, hkey] at hkept
      exact hkept rfl

/-- On a directory without a log and without a configuration, an update makes every error whose key has not
come before weigh as a todo, and changes no other severity.  No error is left exactly when no key comes
twice. -/
theorem formatter_clears_first (hworking : o.compactOnly = false) (hupdating : o.updating = true)
    (hdiffer : FilesDiffer o results) (hunlogged : l.files.isFile l.storagePath = false)
    (hcache : ∀ b ∈ l.cache, b.toList = []) (hsource : Config.source l.files l.baseDir = .ok none)
    (hoverrides : o.overrides.isEmpty = true) (hy : Yields (formatter o read results) l out l') :
    out.results.map (·.warnings.length) = results.map (·.warnings.length) ∧
      (∀ i r place d, results[i]? = some r → r.warnings[place]? = some d →
        severityAt? out.results i place = some (if d.isError &&
            !(earlierKeys o results i r place).contains (keyOf o.engine (r.path o.baseDir) d)
          then .todo else d.severity)) ∧
      (out.errored = false ↔ (results.flatMap (errorKeys o)).Nodup) := by
  obtain ⟨format, policy, p, hprepared, hfiles, rfl⟩ := (yields_formatter_iff hworking).mp hy
  obtain rfl : {} = policy := Except.ok.inj
    ((Config.load_of_no_source hsource hoverrides).symm.trans (load_of_prepare hprepared))
  obtain ⟨live, hcurrent⟩ := exists_currentLive_of_unlogged hunlogged
  have hshows := shows_of_unlogged hcurrent fun _ => hcache
  obtain ⟨live', hupdated, hseeded⟩ := seeded_files hupdating hdiffer hshows (hshows.unlogged hunlogged)
    (Nat.le_refl _) hfiles
  have hresults : p.results = results.map (judged o l' live'.toList) := by
    rw [hupdated.judges, List.take_length, List.drop_length, List.append_nil]
  have hsettled : (workedOutcome o format {} p).results =
      LintResult.settleAll (results.map (judged o l' live'.toList)) := congrArg LintResult.settleAll hresults
  refine ⟨?_, ?_, ?_⟩
  · rw [hsettled, LintResult.settleAll, List.map_map, List.map_map]
    apply List.map_congr_left
    intro r _
    exact Changes.length_foldl_demoteAt _ _
  · intro i r place d hi hplace
    rw [hsettled, hseeded.severityAt?_judged hdiffer, hi, Option.bind_some, hplace, Option.map_some]
  · show LintResult.anyErrored (LintResult.settleAll p.results) = false ↔ _
    rw [hresults]
    exact hseeded.anyErrored_judged hdiffer

/-- The example result with its error reported twice. -/
def exampleTwice : LintResult :=
  { exampleResult with warnings := exampleResult.warnings ++ exampleResult.warnings }

/-- A single result with a path is for a file of its own. -/
theorem filesDiffer_singleton {r : LintResult} (h : r.path o.baseDir ≠ "") : FilesDiffer o [r] := by
  refine ⟨?_, List.nodup_singleton _⟩
  intro s hs
  rwa [List.mem_singleton.mp hs]

/-- On a directory without any file, the first of two errors with one key becomes a todo. -/
theorem formatter_clears_first_of_example :
    ∃ out l', Yields (formatter exampleRenew exampleRead [exampleTwice])
        (FileLedger.openIn noFiles "" FileLedger.exampleDay) out l' ∧
      out.results.map (·.warnings.length) = [2] ∧ severityAt? out.results 0 0 = some .todo ∧
        (out.errored = false ↔ ([exampleTwice].flatMap (errorKeys exampleRenew)).Nodup) := by
  obtain ⟨out, l', hy⟩ := exists_yields_of_isOk (x := formatter exampleRenew exampleRead [exampleTwice])
    (s := .openIn noFiles "" FileLedger.exampleDay) (by decide +kernel)
  obtain ⟨hlengths, hseverity, herrored⟩ := formatter_clears_first
    (l := .openIn noFiles "" FileLedger.exampleDay) rfl rfl (filesDiffer_singleton (by decide +kernel)) rfl
    nofun rfl rfl hy
  exact ⟨out, l', hy, hlengths, hseverity 0 _ 0 _ rfl rfl, herrored⟩

/-- An update on a directory without any file leaves the second of two errors with one key.  And on a directory
whose log is gone, it leaves an error whose todo the ledger remembers. -/
theorem formatter_leaves_second :
    exampleRenew.compactOnly = false ∧ exampleRenew.updating = true ∧
      FilesDiffer exampleRenew [exampleTwice] ∧ FilesDiffer exampleRenew [exampleResult] ∧
      noFiles.isFile ".lint-todo" = false ∧ Config.source noFiles "" = .ok none ∧
      exampleRenew.overrides.isEmpty = true ∧
      (∃ out l', Yields (formatter exampleRenew exampleRead [exampleTwice])
          (FileLedger.openIn noFiles "" FileLedger.exampleDay) out l' ∧
        severityAt? out.results 0 1 = some .error ∧ out.errored = true) ∧
      ∃ out l', Yields (formatter exampleRenew exampleRead [exampleResult]) exampleLost out l' ∧
        severityAt? out.results 0 0 = some .error ∧ out.errored = true := by
  refine ⟨rfl, rfl, filesDiffer_singleton (by decide +kernel), filesDiffer_singleton (by decide +kernel),
    rfl, rfl, rfl, ?_, ?_⟩
  · obtain ⟨out, l', hy, hseen⟩ := exists_yields_of_toOption (b := (some Severity.error, true))
      (f := fun out : RunOutcome => (severityAt? out.results 0 1, out.errored))
      (x := formatter exampleRenew exampleRead [exampleTwice])
      (s := .openIn noFiles "" FileLedger.exampleDay) (by decide +kernel)
    exact ⟨out, l', hy, Prod.mk.inj hseen⟩
  · obtain ⟨out, l', hy, hseen⟩ := exists_yields_of_toOption (b := (some Severity.error, true))
      (f := fun out : RunOutcome => (severityAt? out.results 0 0, out.errored))
      (x := formatter exampleRenew exampleRead [exampleResult]) (s := exampleLost) (by decide +kernel)
    exact ⟨out, l', hy, Prod.mk.inj hseen⟩

end LintDebt.Run
