import LintDebt.Proofs.Config
import LintDebt.Proofs.Run.Schedule

/-!
# Windows in order

A configuration is accepted when in each of its windows the warning comes before the error.  A todo that is
written under it gets its dates from the window of its rule, so it weighs as a todo first, then as a
warning, and as an error only when the date of the warning has passed.

* `LintDebt.DecayWindow.Inverted`: a window that is not in order.
* `LintDebt.Config.Decodes`: what the configuration says before its windows are checked.
* `LintDebt.Config.exists_load_eq_invalidDecay_iff`: when a configuration is refused for its windows.
* `LintDebt.deadline_lt_deadline`: the dates of a window in order are in order.
* `LintDebt.FileLedger.Scheduled`: a todo that has its dates from a policy, and what they mean from day to day.
* `LintDebt.FileLedger.scheduled_of_write`, `LintDebt.FileLedger.scheduled_of_exchange`: what a ledger writes
  under windows in order is so.
* `LintDebt.load_scheduled`: which configurations are accepted, and what this means for the todos.
-/

namespace LintDebt

/-! ## Windows -/

namespace DecayWindow

/-- The warning of a window does not come before its error. -/
def Inverted (w : DecayWindow) : Prop :=
  ∃ warn error, w.warn = some warn ∧ w.error = some error ∧ error ≤ warn

/-- The disorder of a window, if there is one, is between its two sides. -/
theorem disorder?_eq_some_iff {w : DecayWindow} {warn error : UInt32} :
    w.disorder? = some (warn, error) ↔ w.warn = some warn ∧ w.error = some error ∧ error ≤ warn := by
  obtain ⟨_ | a, _ | b⟩ := w
  · simp [disorder?]
  · simp [disorder?]
  · simp [disorder?]
  · simp only [disorder?, Option.ite_none_right_eq_some, Option.some.injEq, Prod.mk.injEq]
    constructor
    · rintro ⟨hle, rfl, rfl⟩
      exact ⟨rfl, rfl, hle⟩
    · rintro ⟨rfl, rfl, hle⟩
      exact ⟨hle, rfl, rfl⟩

/-- A window has a disorder when it is inverted. -/
theorem isSome_disorder?_iff {w : DecayWindow} : w.disorder?.isSome = true ↔ w.Inverted := by
  rw [Option.isSome_iff_exists, Prod.exists]
  simp only [disorder?_eq_some_iff, Inverted]

end DecayWindow

namespace Config

variable {files : FileTree} {baseDir engine : String} {overrides : DecayWindow} {p policy : DecayPolicy}

/-- A policy is accepted as it is when none of its windows is inverted. -/
theorem check_eq_ok_iff : check p = .ok policy ↔ p = policy ∧ ∀ w ∈ windows p, ¬ w.Inverted := by
  simp only [← DecayWindow.isSome_disorder?_iff, Option.not_isSome_iff_eq_none]
  rw [← List.findSome?_eq_none_iff, check]
  split
  · next h => simp [h]
  · next h => simp [h]

/-- A policy is refused when one of its windows is inverted. -/
theorem exists_check_eq_invalidDecay_iff :
    (∃ warn error, check p = .error (.invalidDecay warn error)) ↔ ∃ w ∈ windows p, w.Inverted := by
  simp only [← DecayWindow.isSome_disorder?_iff]
  rw [← List.findSome?_isSome_iff, check]
  split
  · next h => simp [h]
  · next h => simp [h]

/-- The configuration says this before its windows are checked; where there is none, nothing decays. -/
def Decodes (files : FileTree) (baseDir engine : String) (p : DecayPolicy) : Prop :=
  (source files baseDir = .ok none ∧ p = {}) ∨
    ∃ path raw, source files baseDir = .ok (some (path, raw)) ∧ sectionFor? engine raw = some p

/-- What the configuration says gives way to the overrides, and then its windows are checked. -/
theorem Decodes.load_eq (h : Decodes files baseDir engine p) (overrides : DecayWindow) :
    load files baseDir engine overrides = check (override overrides p) := by
  unfold load
  rcases h with ⟨hsource, rfl⟩ | ⟨path, raw, hsource, hsection⟩
  · rw [hsource]
    rfl
  · rw [hsource]
    dsimp only [bind, Except.bind]
    rw [hsection]

/-- Either the configuration says something, whose windows are then checked, or its source is to blame. -/
theorem exists_decodes_or (files : FileTree) (baseDir engine : String) (overrides : DecayWindow) :
    (∃ p, Decodes files baseDir engine p) ∨
      ∃ c, load files baseDir engine overrides = .error c ∧ c.inSource = true := by
  cases hsource : source files baseDir with
  | error c =>
    right
    refine ⟨c, ?_, inSource_of_source hsource⟩
    unfold load
    rw [hsource]
    rfl
  | ok found =>
    cases found with
    | none => exact .inl ⟨{}, .inl ⟨hsource, rfl⟩⟩
    | some entry =>
      obtain ⟨path, raw⟩ := entry
      cases hsection : sectionFor? engine raw with
      | some p => exact .inl ⟨p, .inr ⟨path, raw, hsource, hsection⟩⟩
      | none =>
        right
        refine ⟨.unreadableConfig path, ?_, rfl⟩
        unfold load
        rw [hsource]
        dsimp only [bind, Except.bind]
        rw [hsection]

/-- Overrides leave the windows of single rules. -/
theorem byRule_override (overrides : DecayWindow) (p : DecayPolicy) :
    (override overrides p).byRule = p.byRule := by
  unfold override
  split <;> rfl

/-- The general window of a policy with overrides is inverted when the two sides are, each taken from the
overrides if they have it. -/
theorem exists_inverted_window_override_iff :
    (∃ w ∈ (override overrides p).window.toList, w.Inverted) ↔
      ∃ warn error, (overrides.warn <|> p.window.bind (·.warn)) = some warn ∧
        (overrides.error <|> p.window.bind (·.error)) = some error ∧ error ≤ warn := by
  unfold override
  by_cases hempty : overrides.isEmpty = true
  · obtain ⟨hwarn, herror⟩ := Bool.and_eq_true_iff.mp hempty
    rw [if_pos hempty, Option.isNone_iff_eq_none.mp hwarn, Option.isNone_iff_eq_none.mp herror]
    cases p.window <;> simp [DecayWindow.Inverted]
  · rw [if_neg hempty]
    cases p.window <;> simp [DecayWindow.Inverted, DecayWindow.orElse]

/-- Of the windows of a policy with overrides, one is inverted when the general one is, side by side with the
overrides, or the one of a rule. -/
theorem exists_inverted_override_iff : (∃ w ∈ windows (override overrides p), w.Inverted) ↔
    (∃ warn error, (overrides.warn <|> p.window.bind (·.warn)) = some warn ∧
      (overrides.error <|> p.window.bind (·.error)) = some error ∧ error ≤ warn) ∨
    ∃ rule w, (rule, w) ∈ p.byRule ∧ w.Inverted := by
  rw [← exists_inverted_window_override_iff, windows, byRule_override]
  constructor
  · rintro ⟨w, hw, hinverted⟩
    rcases List.mem_append.mp hw with hw | hw
    · exact .inl ⟨w, hw, hinverted⟩
    · obtain ⟨⟨rule, w⟩, hmem, rfl⟩ := List.mem_map.mp hw
      exact .inr ⟨rule, w, hmem, hinverted⟩
  · rintro (⟨w, hw, hinverted⟩ | ⟨rule, w, hmem, hinverted⟩)
    · exact ⟨w, List.mem_append_left _ hw, hinverted⟩
    · exact ⟨w, List.mem_append_right _ (List.mem_map.mpr ⟨_, hmem, rfl⟩), hinverted⟩

/-- A configuration is refused for its windows when it says something, but one of its windows is inverted: the
general one, side by side with the overrides, or the one of a rule. -/
theorem exists_load_eq_invalidDecay_iff :
    (∃ warn error, load files baseDir engine overrides = .error (.invalidDecay warn error)) ↔
      ∃ p, Decodes files baseDir engine p ∧
        ((∃ warn error, (overrides.warn <|> p.window.bind (·.warn)) = some warn ∧
          (overrides.error <|> p.window.bind (·.error)) = some error ∧ error ≤ warn) ∨
        ∃ rule w, (rule, w) ∈ p.byRule ∧ w.Inverted) := by
  simp only [← exists_inverted_override_iff, ← exists_check_eq_invalidDecay_iff]
  constructor
  · rintro ⟨warn, error, h⟩
    rcases exists_decodes_or files baseDir engine overrides with ⟨p, hp⟩ | ⟨c, hc, hsource⟩
    · exact ⟨p, hp, warn, error, by rw [← hp.load_eq, h]⟩
    · rw [h] at hc
      cases hc
      exact absurd hsource Bool.false_ne_true
  · rintro ⟨p, hp, warn, error, h⟩
    exact ⟨warn, error, by rw [hp.load_eq, h]⟩

/-- In an accepted configuration no window is inverted. -/
theorem not_inverted_of_load (h : load files baseDir engine overrides = .ok policy) :
    ∀ w ∈ windows policy, ¬ w.Inverted := by
  rcases exists_decodes_or files baseDir engine overrides with ⟨p, hp⟩ | ⟨c, hc, -⟩
  · rw [hp.load_eq] at h
    exact (check_eq_ok_iff.mp h).1 ▸ (check_eq_ok_iff.mp h).2
  · rw [h] at hc
    cases hc

end Config

/-- The window that counts for a rule is one of the windows of the policy. -/
theorem DecayPolicy.mem_windows_of_windowFor {p : DecayPolicy} {rule : String} {w : DecayWindow}
    (h : p.windowFor rule = some w) : w ∈ Config.windows p := by
  unfold windowFor at h
  cases hrule : p.byRule.find? rule with
  | none =>
    rw [hrule] at h
    exact List.mem_append_left _ (Option.mem_toList.mpr h)
  | some own =>
    rw [hrule] at h
    obtain rfl := Option.some.inj h
    obtain ⟨entry, hfind, rfl⟩ := Option.map_eq_some_iff.mp hrule
    exact List.mem_append_right _ (List.mem_map.mpr ⟨entry, List.mem_of_find?_eq_some hfind, rfl⟩)

/-! ## Dates -/

/-- A deadline lies as many days after its start as are set. -/
theorem day_of_deadline {start d : Date} {days : Option UInt32} (h : deadline start days = some d) :
    ∃ n, days = some n ∧ d.day = start.day + n.toNat := by
  obtain ⟨n, hn, hd⟩ := Option.bind_eq_some_iff.mp h
  exact ⟨n, hn, Date.day_of_addDays? hd⟩

/-- Of the dates of a window in order, that of the warning comes first. -/
theorem deadline_lt_deadline {w : DecayWindow} (h : ¬ w.Inverted) {start warn error : Date}
    (hwarn : deadline start w.warn = some warn) (herror : deadline start w.error = some error) :
    warn.day < error.day := by
  obtain ⟨a, ha, hday⟩ := day_of_deadline hwarn
  obtain ⟨b, hb, hday'⟩ := day_of_deadline herror
  have hlt : a.toNat < b.toNat := by
    by_contra hle
    exact h ⟨a, b, ha, hb, UInt32.le_iff_toNat_le.mpr (Nat.not_lt.mp hle)⟩
  omega

/-- A date that has come by a day has come by any later day. -/
theorem reached_of_le {date : Option Date} {day later : Date} (hle : day.le later = true)
    (h : reached date day = true) : reached date later = true := by
  cases date with
  | none => cases h
  | some d =>
    have hd : d.day ≤ day.day := of_decide_eq_true h
    exact decide_eq_true (Int.le_trans hd (of_decide_eq_true hle))

/-- From day to day a todo never weighs less. -/
theorem code_severityOn_mono (warnDate errorDate : Option Date) {day later : Date}
    (hle : day.le later = true) :
    (severityOn day warnDate errorDate).code ≤ (severityOn later warnDate errorDate).code := by
  have herror : reached errorDate day = true → reached errorDate later = true := reached_of_le hle
  have hwarn : reached warnDate day = true → reached warnDate later = true := reached_of_le hle
  unfold severityOn
  cases hfails : reached errorDate day with
  | true => simp [herror hfails]
  | false =>
    cases hwarns : reached warnDate day with
    | true =>
      rw [hwarn hwarns]
      cases reached errorDate later <;> decide
    | false => cases reached errorDate later <;> cases reached warnDate later <;> decide

/-- By the day on which a todo weighs as an error its warning has passed, if its dates are in order. -/
theorem lt_of_severityOn_eq_error {warnDate errorDate : Option Date} {day warn : Date}
    (hordered : ∀ error, errorDate = some error → warn.day < error.day)
    (h : severityOn day warnDate errorDate = .error) : warn.day < day.day := by
  unfold severityOn at h
  split at h
  · next hreached =>
    obtain ⟨error, herror, hcome⟩ := (Option.any_eq_true _ _).mp hreached
    have hle : error.day ≤ day.day := of_decide_eq_true hcome
    exact Int.lt_of_lt_of_le (hordered error herror) hle
  · split at h <;> cases h

/-! ## Todos that a ledger writes -/

namespace FileLedger

variable {policy : DecayPolicy} {l l' : FileLedger} {live : Batch} {x c : Todo}
  {ctx : Candidates.Context} {read : String → Option String} {results : List LintResult}

/-- The severity code that a ledger gives a todo on a day. -/
def codeOn (l : FileLedger) (day : Date) (x : Todo) : Int :=
  Ledger.severityCode ({ l with today := day } : FileLedger) x

/-- The severity code of a todo comes from its dates. -/
theorem codeOn_eq (l : FileLedger) (day : Date) (x : Todo) :
    l.codeOn day x = (severityOn day x.warnDate x.errorDate).code :=
  congrArg Severity.code (severity_eq_severityOn { l with today := day } x)

/-- A todo that a ledger has dated today under a policy, with the severity codes that it gets from day to
day. -/
structure Scheduled (policy : DecayPolicy) (l : FileLedger) (x : Todo) : Prop where
  createdDate : x.createdDate = some l.today
  warnDate : x.warnDate = deadline l.today ((policy.windowFor x.ruleId).getD {}).warn
  errorDate : x.errorDate = deadline l.today ((policy.windowFor x.ruleId).getD {}).error
  /-- The warning comes before the error, where there are both. -/
  ordered : ∀ warn error, x.warnDate = some warn → x.errorDate = some error → warn.day < error.day
  known : ∀ day, l.codeOn day x ∈ [Severity.todo.code, Severity.warning.code, Severity.error.code]
  /-- From day to day the code only moves forward. -/
  forward : ∀ day later : Date, day.le later = true → l.codeOn day x ≤ l.codeOn later x
  /-- There is no error as long as the warning lies ahead. -/
  warned : ∀ day warn, x.warnDate = some warn → l.codeOn day x = Severity.error.code → warn.day < day.day

/-- The window that counts for a rule, if any, is in order when all windows of the policy are. -/
theorem not_inverted_windowFor (hordered : ∀ w ∈ Config.windows policy, ¬ w.Inverted) (rule : String) :
    ¬ ((policy.windowFor rule).getD {}).Inverted := by
  cases h : policy.windowFor rule with
  | none =>
    rintro ⟨warn, error, hwarn, -⟩
    cases hwarn
  | some w => exact hordered w (DecayPolicy.mem_windows_of_windowFor h)

/-- Dates that come from the windows of a policy in order are those of a schedule. -/
theorem Scheduled.of_dates (hordered : ∀ w ∈ Config.windows policy, ¬ w.Inverted)
    (hcreated : x.createdDate = some l.today)
    (hwarn : x.warnDate = deadline l.today ((policy.windowFor x.ruleId).getD {}).warn)
    (herror : x.errorDate = deadline l.today ((policy.windowFor x.ruleId).getD {}).error) :
    Scheduled policy l x := by
  have hdates : ∀ warn error, x.warnDate = some warn → x.errorDate = some error →
      warn.day < error.day := by
    intro warn error hw he
    rw [hwarn] at hw
    rw [herror] at he
    exact deadline_lt_deadline (not_inverted_windowFor hordered x.ruleId) hw he
  refine ⟨hcreated, hwarn, herror, hdates, fun day => ?_, fun day later hle => ?_,
    fun day warn hw hcode => ?_⟩
  · rw [codeOn_eq, severityOn]
    split
    · decide
    · split <;> decide
  · rw [codeOn_eq, codeOn_eq]
    exact code_severityOn_mono _ _ hle
  · have herrored : severityOn day x.warnDate x.errorDate = .error := by
      rw [codeOn_eq] at hcode
      exact Option.some.inj (by rw [← Severity.ofCode?_code, hcode, Severity.ofCode?_code])
    exact lt_of_severityOn_eq_error (fun error he => hdates warn error hw he) herrored

/-- A candidate that is dated gets its dates from the window that counts for its rule, whatever policy it is
written under, if that has no window where there is none. -/
theorem scheduled_date {other : Option DecayPolicy}
    (hordered : ∀ w ∈ Config.windows ctx.policy, ¬ w.Inverted)
    (hother : ∀ rule, ctx.policy.windowFor rule = none → (other.bind (·.windowFor rule)) = none)
    (hc : c ∈ (Candidates.extract ctx read results).1.toList) :
    Scheduled ctx.policy l (l.date other c).stored := by
  obtain ⟨filePath, contents, origin, d, rfl⟩ := Candidates.exists_of_mem_extract hc
  have hwindow : (ctx.policy.windowFor d.ruleId <|> other.bind (·.windowFor d.ruleId)) =
      ctx.policy.windowFor d.ruleId := by
    cases h : ctx.policy.windowFor d.ruleId with
    | none => exact hother d.ruleId h
    | some w => rfl
  refine .of_dates hordered rfl ?_ ?_
  · exact congrArg (fun w : Option DecayWindow => deadline l.today (w.getD {}).warn) hwindow
  · exact congrArg (fun w : Option DecayWindow => deadline l.today (w.getD {}).error) hwindow

/-- After entries that add only scheduled todos, a todo was live before or is scheduled. -/
theorem scheduled_of_mem_applyAll {entries : List LogEntry}
    (hadds : ∀ e ∈ entries, e.op = .add → Scheduled policy l e.todo.stored)
    (hx : x ∈ (live.applyAll entries).toList) : x ∈ live.toList ∨ Scheduled policy l x := by
  rcases Batch.mem_toList_applyAll hx with hlive | ⟨e, he, hadd, rfl⟩
  · exact .inl hlive
  · exact .inr (hadds e he hadd)

/-- Entries that add dated candidates and remove todos add only scheduled todos. -/
theorem scheduled_of_mem_entries {other : Option DecayPolicy} {ts removed : List Todo}
    (hordered : ∀ w ∈ Config.windows ctx.policy, ¬ w.Inverted)
    (hother : ∀ rule, ctx.policy.windowFor rule = none → (other.bind (·.windowFor rule)) = none)
    (hts : ∀ c ∈ ts, c ∈ (Candidates.extract ctx read results).1.toList) :
    ∀ e ∈ (ts.map (l.date other)).map (LogEntry.mk .add) ++ removed.map (LogEntry.mk .remove),
      e.op = .add → Scheduled ctx.policy l e.todo.stored := by
  intro e he hadd
  rcases List.mem_append.mp he with he | he
  · obtain ⟨t, ht, rfl⟩ := List.mem_map.mp he
    obtain ⟨c, hc, rfl⟩ := List.mem_map.mp ht
    exact scheduled_date hordered hother (hts c hc)
  · obtain ⟨t, -, rfl⟩ := List.mem_map.mp he
    cases hadd

/-- Of the todos that are live after a write of candidates, each was live before or is scheduled; and there is
a scheduled one for each new key. -/
theorem scheduled_of_write (hordered : ∀ w ∈ Config.windows ctx.policy, ¬ w.Inverted) {scope : Scope}
    (hscope : ∀ rule, ctx.policy.windowFor rule = none → scope.policy.windowFor rule = none)
    {summary : WriteSummary}
    (hy : Yields (write (Candidates.extract ctx read results).1 scope) l summary l') :
    ∃ live live', l.currentLive = .ok live ∧ l'.currentLive = .ok live' ∧
      (∀ x ∈ live'.toList, x ∈ live.toList ∨ Scheduled ctx.policy l x) ∧
      ∀ c ∈ (Candidates.extract ctx read results).1.toList, live.contains c.key = false →
        ∃ x ∈ live'.toList, x.key = c.key ∧ x.ruleId = c.ruleId ∧ Scheduled ctx.policy l x := by
  have hother : ∀ rule, ctx.policy.windowFor rule = none →
      ((some scope.policy).bind (·.windowFor rule)) = none := hscope
  obtain ⟨live, hcurrent, -⟩ := yields_write.mp hy
  obtain ⟨hcache, -⟩ := cached_write hcurrent hy
  refine ⟨live, live.applyAll (l.writeEntries (Candidates.extract ctx read results).1 scope live), hcurrent,
    ?_, ?_, ?_⟩
  · unfold currentLive
    rw [hcache]
  · intro x hx
    exact scheduled_of_mem_applyAll (scheduled_of_mem_entries hordered hother
      fun c hc => (List.mem_filter.mp hc).1) hx
  · intro c hc hnew
    refine ⟨(l.date (some scope.policy) c).stored, ?_, ?_, ?_, scheduled_date hordered hother hc⟩
    · rw [toList_applyAll_writeEntries]
      refine List.mem_append_right _ (List.mem_map.mpr ⟨c, List.mem_filter.mpr ⟨hc, ?_⟩, rfl⟩)
      rw [hnew, Bool.not_false]
    · rw [Todo.key_stored, key_date]
    · unfold date
      split <;> rfl

/-- An exchange that adds candidates appends only entries that add scheduled todos; so of the todos that are
live afterwards, each was live before or is scheduled. -/
theorem scheduled_of_exchange (hordered : ∀ w ∈ Config.windows ctx.policy, ¬ w.Inverted) {remove : Batch}
    (hy : Yields (exchange (Candidates.extract ctx read results).1 remove) l () l') :
    ∃ entries, Yields (append entries) l () l' ∧
      (∀ e ∈ entries, e.op = .add → Scheduled ctx.policy l e.todo.stored) ∧
      ∀ live, l.Coherent live → ∃ live', l'.currentLive = .ok live' ∧
        ∀ x ∈ live'.toList, x ∈ live.toList ∨ Scheduled ctx.policy l x := by
  have happends := yields_exchange.mp hy
  have hadds : ∀ e ∈ l.exchangeEntries (Candidates.extract ctx read results).1 remove,
      e.op = .add → Scheduled ctx.policy l e.todo.stored :=
    scheduled_of_mem_entries hordered (fun _ _ => rfl) fun c hc => hc
  refine ⟨_, happends, hadds, fun live h => ?_⟩
  have happend := yields_append.mp happends
  split at happend
  · subst happend
    exact ⟨live, h.currentLive_eq, fun x hx => .inl hx⟩
  · obtain ⟨files, hfiles, rfl⟩ := happend
    exact ⟨_, (h.append hfiles).currentLive_eq, fun x hx => scheduled_of_mem_applyAll hadds hx⟩

end FileLedger

/-! ## Accepted configurations -/

open FileLedger (Scheduled)

/-- A configuration is refused for its windows exactly when it says something, or there is none, and the general
window, side by side with the overrides, or the window of a rule does not have its warning before its error.
When it is accepted, every todo that a ledger writes for a candidate of it, on any day, is dated from the window
of its rule, with the warning before the error, and weighs as a todo, as a warning and as an error in this
order, but not as an error before its warning has come. -/
theorem load_scheduled (files : FileTree) (baseDir engine : String) (overrides : DecayWindow) :
    ((∃ warn error, Config.load files baseDir engine overrides = .error (.invalidDecay warn error)) ↔
      ∃ p, Config.Decodes files baseDir engine p ∧
        ((∃ warn error, (overrides.warn <|> p.window.bind (·.warn)) = some warn ∧
          (overrides.error <|> p.window.bind (·.error)) = some error ∧ error ≤ warn) ∨
        ∃ rule w, (rule, w) ∈ p.byRule ∧ w.Inverted)) ∧
    ∀ (ctx : Candidates.Context) (read : String → Option String) (results : List LintResult)
      (l l' : FileLedger), Config.load files baseDir engine overrides = .ok ctx.policy →
      (∀ (scope : Scope) (summary : WriteSummary),
        (∀ rule, ctx.policy.windowFor rule = none → scope.policy.windowFor rule = none) →
        Yields (FileLedger.write (Candidates.extract ctx read results).1 scope) l summary l' →
        ∃ live live', l.currentLive = .ok live ∧ l'.currentLive = .ok live' ∧
          (∀ x ∈ live'.toList, x ∈ live.toList ∨ Scheduled ctx.policy l x) ∧
          ∀ c ∈ (Candidates.extract ctx read results).1.toList, live.contains c.key = false →
            ∃ x ∈ live'.toList, x.key = c.key ∧ x.ruleId = c.ruleId ∧ Scheduled ctx.policy l x) ∧
      ∀ remove : Batch,
        Yields (FileLedger.exchange (Candidates.extract ctx read results).1 remove) l () l' →
        ∃ entries, Yields (FileLedger.append entries) l () l' ∧
          (∀ e ∈ entries, e.op = .add → Scheduled ctx.policy l e.todo.stored) ∧
          ∀ live, l.Coherent live → ∃ live', l'.currentLive = .ok live' ∧
            ∀ x ∈ live'.toList, x ∈ live.toList ∨ Scheduled ctx.policy l x := by
  refine ⟨Config.exists_load_eq_invalidDecay_iff, fun ctx read results l l' hload => ?_⟩
  have hordered := Config.not_inverted_of_load hload
  constructor
  · intro scope summary hscope hy
    exact FileLedger.scheduled_of_write hordered hscope hy
  · intro remove hy
    exact FileLedger.scheduled_of_exchange hordered hy

/-- The surroundings of candidates that decay after five and ten days. -/
def exampleDecaying : Candidates.Context :=
  ⟨"/repo", "stylelint", { window := some ⟨some 5, some 10⟩ }⟩

/-- Overrides of ten and five days are refused; under those of five and ten days an error becomes a todo that
is scheduled. -/
theorem load_scheduled_of_overrides :
    (∃ warn error, Config.load Run.noFiles "" "stylelint" ⟨some 10, some 5⟩ =
      .error (.invalidDecay warn error)) ∧
    Config.load Run.noFiles "" "stylelint" ⟨some 5, some 10⟩ = .ok exampleDecaying.policy ∧
    ∃ summary l' live' x, Yields (FileLedger.write
        (Candidates.extract exampleDecaying (fun _ => none) [Run.exampleResult]).1
        ⟨"stylelint", "a.css", exampleDecaying.policy⟩)
        (FileLedger.openIn Run.noFiles "" FileLedger.exampleDay) summary l' ∧
      l'.currentLive = .ok live' ∧ x ∈ live'.toList ∧
        Scheduled exampleDecaying.policy (.openIn Run.noFiles "" FileLedger.exampleDay) x := by
  have hload : Config.load Run.noFiles "" "stylelint" ⟨some 5, some 10⟩ = .ok exampleDecaying.policy := rfl
  obtain ⟨summary, l', hy⟩ := exists_yields_of_isOk (x := FileLedger.write
      (Candidates.extract exampleDecaying (fun _ => none) [Run.exampleResult]).1
      ⟨"stylelint", "a.css", exampleDecaying.policy⟩)
    (s := FileLedger.openIn Run.noFiles "" FileLedger.exampleDay) (by decide +kernel)
  refine ⟨?_, hload, summary, l', ?_⟩
  · exact (load_scheduled Run.noFiles "" "stylelint" ⟨some 10, some 5⟩).1.mpr
      ⟨{}, .inl ⟨rfl, rfl⟩, .inl ⟨10, 5, rfl, rfl, by decide⟩⟩
  · obtain ⟨live, live', hcurrent, hcurrent', -, hnew⟩ :=
      ((load_scheduled Run.noFiles "" "stylelint" ⟨some 5, some 10⟩).2 exampleDecaying (fun _ => none)
        [Run.exampleResult] _ l' hload).1 _ summary (fun _ h => h) hy
    obtain rfl := Except.ok.inj hcurrent
    obtain ⟨c, hc⟩ : ∃ c, c ∈ (Candidates.extract exampleDecaying (fun _ => none)
        [Run.exampleResult]).1.toList := List.exists_mem_of_length_pos (by decide +kernel)
    obtain ⟨x, hx, -, -, hscheduled⟩ := hnew c hc rfl
    exact ⟨live', x, hy, hcurrent', hx, hscheduled⟩

end LintDebt
