import LintDebt.Run

/-!
# Steps that may fail

A step on a ledger, or of a run, starts in a state and either answers or fails; the state that it
leaves counts in both cases.

* `LintDebt.Yields`: what a step answers, and the state it leaves when it answers.
* `LintDebt.Ends`: what holds of the state that a step leaves, whether it answers or fails.
* `LintDebt.Fails`: what holds of the cause and of the state that it leaves when it fails.
* `LintDebt.bind_eq_ok`, `LintDebt.bind_eq_error`: computations that have no state.
* `LintDebt.yields_bind`, `LintDebt.ends_bind`, `LintDebt.fails_bind`: the same for two steps, one after the
  other.
-/

namespace LintDebt

variable {ε σ α β : Type}

/-- A step that starts in a state `s` answers `a` and leaves the state `s'`. -/
def Yields (x : ExceptT ε (StateM σ) α) (s : σ) (a : α) (s' : σ) : Prop :=
  x.run.run s = (.ok a, s')

/-- The state that a step leaves has a property, whether the step answers or fails. -/
def Ends (P : σ → Prop) (x : ExceptT ε (StateM σ) α) (s : σ) : Prop :=
  P (x.run.run s).2

/-- When a step fails, the cause and the state that it leaves have a property. -/
def Fails (P : ε → σ → Prop) (x : ExceptT ε (StateM σ) α) (s : σ) : Prop :=
  ∀ e s', x.run.run s = (.error e, s') → P e s'

/-! ## Computations without a state -/

section Outcomes

variable {δ : Type} {x : Except ε α} {f : α → Except ε β} {e : ε}

/-- Two computations, one after the other, answer when the first does and the second does after it. -/
theorem bind_eq_ok {b : β} : x >>= f = .ok b ↔ ∃ a, x = .ok a ∧ f a = .ok b := by
  cases x <;> simp [bind, Except.bind]

/-- Of two computations, the first fails, or the second does after it has answered. -/
theorem bind_eq_error : x >>= f = .error e ↔ x = .error e ∨ ∃ a, x = .ok a ∧ f a = .error e := by
  cases x <;> simp [bind, Except.bind]

/-- What a computation answers is changed when it answers. -/
theorem map_eq_ok {g : α → β} {b : β} : x.map g = .ok b ↔ ∃ a, x = .ok a ∧ g a = b := by
  cases x <;> simp [Except.map]

/-- What is answered does not depend on the name of the cause of a failure. -/
theorem mapError_eq_ok {g : ε → δ} {a : α} : x.mapError g = .ok a ↔ x = .ok a := by
  cases x with
  | error e => constructor <;> intro h <;> cases h
  | ok b => constructor <;> intro h <;> cases h <;> rfl

/-- A failure has another cause in place of its own. -/
theorem mapError_eq_error {g : ε → δ} {d : δ} : x.mapError g = .error d ↔ ∃ e, x = .error e ∧ g e = d := by
  constructor
  · intro h
    cases x with
    | error e => exact ⟨e, rfl, Except.error.inj h⟩
    | ok b => cases h
  · rintro ⟨e, rfl, rfl⟩
    rfl

end Outcomes

/-! ## Answers -/

section Answers

variable {s s' : σ} {a : α} {x : ExceptT ε (StateM σ) α}

/-- The run of a first step and what follows from it. -/
theorem run_bind_eq (x : ExceptT ε (StateM σ) α) (f : α → ExceptT ε (StateM σ) β) (s : σ) :
    (x >>= f).run.run s = match x.run.run s with
      | (.ok a, s') => (f a).run.run s'
      | (.error e, s') => (.error e, s') := by
  rw [ExceptT.run_bind, StateT.run_bind]
  obtain ⟨r, s'⟩ := x.run.run s
  cases r <;> rfl

/-- A step whose outcome is no error answers something. -/
theorem exists_yields_of_isOk (h : (x.run.run s).1.isOk = true) : ∃ a s', Yields x s a s' := by
  unfold Yields
  rcases hrun : x.run.run s with ⟨r, s'⟩
  rw [hrun] at h
  cases r with
  | ok a => exact ⟨a, s', rfl⟩
  | error e => exact absurd h Bool.false_ne_true

/-- What is seen of the outcome of a step, if that is an answer, is so of what the step answers. -/
theorem exists_yields_of_toOption {f : α → β} {b : β} (h : (x.run.run s).1.toOption.map f = some b) :
    ∃ a s', Yields x s a s' ∧ f a = b := by
  unfold Yields
  rcases hrun : x.run.run s with ⟨e | a, s'⟩
  · rw [hrun] at h
    cases h
  · rw [hrun] at h
    exact ⟨a, s', rfl, Option.some.inj h⟩

/-- A step that only answers leaves the state as it is. -/
theorem yields_pure {b : α} : Yields (pure b : ExceptT ε (StateM σ) α) s a s' ↔ a = b ∧ s' = s := by
  show (Except.ok b, s) = (Except.ok a, s') ↔ _
  rw [Prod.mk.injEq, Except.ok.injEq, eq_comm (a := b), eq_comm (a := s)]

/-- A step that fails does not answer. -/
theorem not_yields_throw {e : ε} : ¬ Yields (throw e : ExceptT ε (StateM σ) α) s a s' := by
  intro h
  have herror : (Except.error e, s) = (Except.ok a, s') := h
  cases herror

/-- Two steps, one after the other, answer when the first does and the second does after it. -/
theorem yields_bind {f : α → ExceptT ε (StateM σ) β} {b : β} {s'' : σ} :
    Yields (x >>= f) s b s'' ↔ ∃ a s', Yields x s a s' ∧ Yields (f a) s' b s'' := by
  unfold Yields
  rw [run_bind_eq]
  constructor
  · intro h
    split at h
    · next a s' hx => exact ⟨a, s', hx, h⟩
    · cases h
  · rintro ⟨a, s', hx, hf⟩
    rw [hx]
    exact hf

/-- The answer that is the state. -/
theorem yields_get {t : σ} : Yields (get : ExceptT ε (StateM σ) σ) s t s' ↔ t = s ∧ s' = s := by
  show (Except.ok s, s) = (Except.ok t, s') ↔ _
  rw [Prod.mk.injEq, Except.ok.injEq, eq_comm (a := s), eq_comm (a := s)]

/-- A step that looks at the state first goes on as for that state. -/
theorem yields_get_bind {f : σ → ExceptT ε (StateM σ) α} :
    Yields (get >>= f) s a s' ↔ Yields (f s) s a s' := by
  rw [yields_bind]
  constructor
  · rintro ⟨t, u, hget, hf⟩
    obtain ⟨rfl, rfl⟩ := yields_get.mp hget
    exact hf
  · intro h
    exact ⟨s, s, yields_get.mpr ⟨rfl, rfl⟩, h⟩

/-- A new state takes the place of the old. -/
theorem yields_set {t : σ} {u : PUnit} :
    Yields (set t : ExceptT ε (StateM σ) PUnit) s u s' ↔ s' = t := by
  show (Except.ok PUnit.unit, t) = (Except.ok u, s') ↔ _
  rw [Prod.mk.injEq, eq_comm (a := t)]
  exact and_iff_right rfl

/-- A changed state takes the place of the old. -/
theorem yields_modify {f : σ → σ} {u : PUnit} :
    Yields (modify f : ExceptT ε (StateM σ) PUnit) s u s' ↔ s' = f s := by
  show (Except.ok PUnit.unit, f s) = (Except.ok u, s') ↔ _
  rw [Prod.mk.injEq, eq_comm (a := f s)]
  exact and_iff_right rfl

/-- A value that may be an error, as a step on a ledger. -/
theorem LedgerM.yields_ofExcept {s s' : σ} {a : α} {r : Except LedgerError α} :
    Yields (LedgerM.ofExcept r : LedgerM σ α) s a s' ↔ r = .ok a ∧ s' = s := by
  cases r with
  | ok b =>
    rw [LedgerM.ofExcept, Except.ok.injEq, eq_comm (a := b)]
    exact yields_pure
  | error e =>
    constructor
    · exact fun h => absurd h not_yields_throw
    · rintro ⟨h, -⟩
      cases h

/-- A value that may be an error, as a step of a run. -/
theorem Run.yields_ofExcept {s s' : σ} {a : α} {r : Except RunError α} :
    Yields (Run.ofExcept r : RunM σ α) s a s' ↔ r = .ok a ∧ s' = s := by
  cases r with
  | ok b =>
    rw [Run.ofExcept, Except.ok.injEq, eq_comm (a := b)]
    exact yields_pure
  | error e =>
    constructor
    · exact fun h => absurd h not_yields_throw
    · rintro ⟨h, -⟩
      cases h

/-- The run of a step on the ledger as a step of a run. -/
theorem Run.run_onLedger (step : LedgerM σ α) (s : σ) :
    (Run.onLedger step).run.run s =
      ((step.run.run s).1.mapError RunError.ledger, (step.run.run s).2) := rfl

/-- A step on the ledger answers as a step of a run what it answers by itself. -/
theorem Run.yields_onLedger {s s' : σ} {a : α} {step : LedgerM σ α} :
    Yields (Run.onLedger step) s a s' ↔ Yields step s a s' := by
  unfold Yields
  rw [Run.run_onLedger]
  obtain ⟨r, t⟩ := step.run.run s
  cases r <;> constructor <;> intro h <;> cases h <;> rfl

/-- Steps along the numbers below a bound, the last of them taken apart. -/
theorem yields_foldlM_range_succ {f : α → Nat → ExceptT ε (StateM σ) α} {n : Nat} {p q : α}
    {s'' : σ} :
    Yields ((List.range (n + 1)).foldlM f p) s q s'' ↔
      ∃ p' s', Yields ((List.range n).foldlM f p) s p' s' ∧ Yields (f p' n) s' q s'' := by
  rw [List.range_succ, List.foldlM_append, yields_bind]
  have hlast (p' : α) : [n].foldlM f p' = f p' n := by
    rw [List.foldlM_cons]
    exact bind_pure (f p' n)
  simp only [hlast]

end Answers

/-! ## The state in the end -/

section Ends

variable {P : σ → Prop} {s : σ} {x : ExceptT ε (StateM σ) α}

/-- A step that answers leaves a state with the property. -/
theorem Ends.of_yields {a : α} {s' : σ} (h : Ends P x s) (hx : Yields x s a s') : P s' := by
  unfold Ends at h
  rw [hx] at h
  exact h

/-- A step that only answers leaves the state as it is. -/
theorem ends_pure (h : P s) (a : α) : Ends P (pure a : ExceptT ε (StateM σ) α) s := h

/-- Of two steps, the first may fail, and the second starts where the first has answered. -/
theorem ends_bind {f : α → ExceptT ε (StateM σ) β} (hx : Ends P x s)
    (hf : ∀ a s', Yields x s a s' → P s' → Ends P (f a) s') : Ends P (x >>= f) s := by
  unfold Ends
  rw [run_bind_eq]
  split
  · next a s' hrun => exact hf a s' hrun (hx.of_yields hrun)
  · next e s' hrun =>
    unfold Ends at hx
    rw [hrun] at hx
    exact hx

/-- A step that looks at the state first goes on as for that state. -/
theorem ends_get_bind {f : σ → ExceptT ε (StateM σ) α} (h : Ends P (f s) s) :
    Ends P (get >>= f) s := h

/-- A value that may be an error leaves the state as it is. -/
theorem LedgerM.ends_ofExcept {P : σ → Prop} {s : σ} (h : P s) (r : Except LedgerError α) :
    Ends P (LedgerM.ofExcept r : LedgerM σ α) s := by
  cases r <;> exact h

/-- A value that may be an error leaves the state as it is. -/
theorem Run.ends_ofExcept {P : σ → Prop} {s : σ} (h : P s) (r : Except RunError α) :
    Ends P (Run.ofExcept r : RunM σ α) s := by
  cases r <;> exact h

/-- A step on the ledger leaves the same state as a step of a run. -/
theorem Run.ends_onLedger {P : σ → Prop} {s : σ} {step : LedgerM σ α} (h : Ends P step s) :
    Ends P (Run.onLedger step) s := by
  unfold Ends
  rw [Run.run_onLedger]
  exact h

/-- Steps that each keep a property of the state keep it together. -/
theorem ends_foldlM {f : β → α → ExceptT ε (StateM σ) β} (hf : ∀ b a s, P s → Ends P (f b a) s)
    (as : List α) (b : β) (h : P s) : Ends P (as.foldlM f b) s := by
  induction as generalizing b s with
  | nil => exact h
  | cons a as ih =>
    rw [List.foldlM_cons]
    exact ends_bind (hf b a s h) fun b' s' _ hs' => ih b' hs'

end Ends

/-! ## Failures -/

section Fails

variable {P : ε → σ → Prop} {s : σ} {x : ExceptT ε (StateM σ) α}

/-- A step that only answers does not fail. -/
theorem fails_pure (a : α) : Fails P (pure a : ExceptT ε (StateM σ) α) s := by
  intro e s' h
  have hanswer : (Except.ok a, s) = (Except.error e, s') := h
  cases hanswer

/-- A step that fails at once leaves the state as it is. -/
theorem fails_throw {e : ε} (h : P e s) : Fails P (throw e : ExceptT ε (StateM σ) α) s := by
  intro e' s' hrun
  have hcause : (Except.error e, s) = (Except.error e', s') := hrun
  cases hcause
  exact h

/-- Of two steps, the first fails, or the second does where the first has answered. -/
theorem fails_bind {f : α → ExceptT ε (StateM σ) β} (hx : Fails P x s)
    (hf : ∀ a s', Yields x s a s' → Fails P (f a) s') : Fails P (x >>= f) s := by
  intro e s'' h
  rw [run_bind_eq] at h
  split at h
  · next a s' hrun => exact hf a s' hrun e s'' h
  · next e' s' hrun =>
    cases h
    exact hx e s'' hrun

/-- A step that looks at the state first fails as for that state. -/
theorem fails_get_bind {f : σ → ExceptT ε (StateM σ) α} (h : Fails P (f s) s) :
    Fails P (get >>= f) s := h

/-- What holds of a failure holds also in a weaker form. -/
theorem Fails.imp {Q : ε → σ → Prop} (h : Fails P x s) (himp : ∀ e s', P e s' → Q e s') : Fails Q x s :=
  fun e s' hrun => himp e s' (h e s' hrun)

/-- A step that cannot fail answers. -/
theorem Fails.exists_yields (h : Fails P x s) (hnever : ∀ e s', ¬ P e s') : ∃ a s', Yields x s a s' := by
  rcases hrun : x.run.run s with ⟨e | a, s'⟩
  · exact absurd (h e s' hrun) (hnever e s')
  · exact ⟨a, s', hrun⟩

/-- A value that may be an error fails for this error. -/
theorem LedgerM.fails_ofExcept {P : LedgerError → σ → Prop} {s : σ} {r : Except LedgerError α}
    (h : ∀ e, r = .error e → P e s) : Fails P (LedgerM.ofExcept r : LedgerM σ α) s := by
  cases r with
  | ok a => exact fails_pure a
  | error e => exact fails_throw (h e rfl)

/-- A value that may be an error fails for this error. -/
theorem Run.fails_ofExcept {P : RunError → σ → Prop} {s : σ} {r : Except RunError α}
    (h : ∀ e, r = .error e → P e s) : Fails P (Run.ofExcept r : RunM σ α) s := by
  cases r with
  | ok a => exact fails_pure a
  | error e => exact fails_throw (h e rfl)

/-- A step on the ledger fails as a step of a run for the same cause. -/
theorem Run.fails_onLedger {P : RunError → σ → Prop} {s : σ} {step : LedgerM σ α}
    (h : Fails (fun c => P (.ledger c)) step s) : Fails P (Run.onLedger step) s := by
  intro e s' hrun
  rw [Run.run_onLedger] at hrun
  rcases hstep : step.run.run s with ⟨c | a, t⟩
  · rw [hstep] at hrun
    cases hrun
    exact h c t hstep
  · rw [hstep] at hrun
    cases hrun

/-- Steps along the numbers below a bound fail as one of them does where those before it have answered. -/
theorem fails_foldlM_range {f : α → Nat → ExceptT ε (StateM σ) α} {n : Nat} {a : α}
    (h : ∀ i b s', i < n → Yields ((List.range i).foldlM f a) s b s' → Fails P (f b i) s') :
    Fails P ((List.range n).foldlM f a) s := by
  induction n with
  | zero => exact fails_pure a
  | succ n ih =>
    rw [List.range_succ, List.foldlM_append]
    apply fails_bind (ih fun i b s' hi => h i b s' (Nat.lt_succ_of_lt hi))
    intro b s' hfirst
    rw [List.foldlM_cons]
    exact fails_bind (h n b s' (Nat.lt_succ_self n) hfirst) fun c _ _ => fails_pure c

end Fails

end LintDebt
