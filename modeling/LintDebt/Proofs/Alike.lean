import LintDebt.Proofs.Step

/-!
# Steps that go alike

Two steps, each in a state of its own, go alike when they give the same outcome, an answer or the cause of a
failure, and leave states that are related.

* `LintDebt.Alike`: two steps that go alike.
* `LintDebt.alike_bind`: steps that go alike and are followed by steps that go alike.
* `LintDebt.alike_foldlM_range`: the same for many steps.
-/

namespace LintDebt

variable {ε σ τ α β : Type} {R : σ → τ → Prop} {s : σ} {t : τ}

/-- Two steps have the same outcome, and the states that they leave are related. -/
def Alike (R : σ → τ → Prop) (x : ExceptT ε (StateM σ) α) (y : ExceptT ε (StateM τ) α) (s : σ)
    (t : τ) : Prop :=
  (x.run.run s).1 = (y.run.run t).1 ∧ R (x.run.run s).2 (y.run.run t).2

/-- Steps that only answer go alike. -/
theorem alike_pure (h : R s t) (a : α) :
    Alike R (pure a : ExceptT ε (StateM σ) α) (pure a : ExceptT ε (StateM τ) α) s t :=
  ⟨rfl, h⟩

/-- Steps that fail for the same cause go alike. -/
theorem alike_throw (h : R s t) (e : ε) :
    Alike R (throw e : ExceptT ε (StateM σ) α) (throw e : ExceptT ε (StateM τ) α) s t :=
  ⟨rfl, h⟩

/-- Steps that set related states go alike. -/
theorem alike_set {u : σ} {v : τ} (h : R u v) :
    Alike R (set u : ExceptT ε (StateM σ) PUnit) (set v : ExceptT ε (StateM τ) PUnit) s t :=
  ⟨rfl, h⟩

/-- Steps that go alike, followed by steps that go alike. -/
theorem alike_bind {x : ExceptT ε (StateM σ) α} {y : ExceptT ε (StateM τ) α}
    {f : α → ExceptT ε (StateM σ) β} {g : α → ExceptT ε (StateM τ) β} (h : Alike R x y s t)
    (hf : ∀ a s' t', Yields x s a s' → Yields y t a t' → R s' t' → Alike R (f a) (g a) s' t') :
    Alike R (x >>= f) (y >>= g) s t := by
  obtain ⟨hsame, hrelated⟩ := h
  unfold Alike
  rw [run_bind_eq, run_bind_eq]
  -- both have failed or both go on, since their outcomes are the same
  rcases hx : x.run.run s with ⟨e | a, s'⟩ <;> rcases hy : y.run.run t with ⟨e' | a', t'⟩ <;>
    rw [hx, hy] at hsame hrelated <;> cases hsame
  · exact ⟨rfl, hrelated⟩
  · exact hf a s' t' hx hy hrelated

/-- Steps that both answer the same go alike when the states that they leave are related. -/
theorem alike_of_yields {x : ExceptT ε (StateM σ) α} {y : ExceptT ε (StateM τ) α} {a : α} {s' : σ}
    {t' : τ} (hx : Yields x s a s') (hy : Yields y t a t') (h : R s' t') : Alike R x y s t := by
  unfold Alike
  rw [hx, hy]
  exact ⟨rfl, h⟩

/-- Steps whose answers may differ, followed by steps that go alike nevertheless. -/
theorem alike_bind_of_yields {γ : Type} {x : ExceptT ε (StateM σ) α} {y : ExceptT ε (StateM τ) γ}
    {f : α → ExceptT ε (StateM σ) β} {g : γ → ExceptT ε (StateM τ) β} {a : α} {c : γ} {s' : σ} {t' : τ}
    (hx : Yields x s a s') (hy : Yields y t c t') (h : Alike R (f a) (g c) s' t') :
    Alike R (x >>= f) (y >>= g) s t := by
  unfold Alike
  rw [run_bind_eq, run_bind_eq, hx, hy]
  exact h

/-- Steps that look at their states first go alike when they do so for these states. -/
theorem alike_get_bind {f : σ → ExceptT ε (StateM σ) α} {g : τ → ExceptT ε (StateM τ) α}
    (h : Alike R (f s) (g t) s t) : Alike R (get >>= f) (get >>= g) s t :=
  h

/-- Values that may be an error go alike, as steps on ledgers. -/
theorem LedgerM.alike_ofExcept {R : σ → τ → Prop} {s : σ} {t : τ} (h : R s t) (r : Except LedgerError α) :
    Alike R (LedgerM.ofExcept r : LedgerM σ α) (LedgerM.ofExcept r : LedgerM τ α) s t := by
  cases r <;> exact ⟨rfl, h⟩

/-- Values that may be an error go alike, as steps of runs. -/
theorem Run.alike_ofExcept {R : σ → τ → Prop} {s : σ} {t : τ} (h : R s t)
    (r : Except RunError α) :
    Alike R (Run.ofExcept r : RunM σ α) (Run.ofExcept r : RunM τ α) s t := by
  cases r <;> exact ⟨rfl, h⟩

/-- Steps on ledgers that go alike do so as steps of runs. -/
theorem Run.alike_onLedger {R : σ → τ → Prop} {s : σ} {t : τ} {x : LedgerM σ α} {y : LedgerM τ α}
    (h : Alike R x y s t) : Alike R (Run.onLedger x) (Run.onLedger y) s t := by
  obtain ⟨hsame, hrelated⟩ := h
  unfold Alike
  rw [Run.run_onLedger, Run.run_onLedger, hsame]
  exact ⟨rfl, hrelated⟩

/-- Steps along the numbers below a bound that each go alike from related states, when the steps before them
have answered, do so together. -/
theorem alike_foldlM_range {f : α → Nat → ExceptT ε (StateM σ) α} {g : α → Nat → ExceptT ε (StateM τ) α}
    {n : Nat} {a : α} (hstep : ∀ i b s' t', i < n → Yields ((List.range i).foldlM f a) s b s' →
      R s' t' → Alike R (f b i) (g b i) s' t') (h : R s t) :
    Alike R ((List.range n).foldlM f a) ((List.range n).foldlM g a) s t := by
  induction n with
  | zero => exact alike_pure h a
  | succ n ih =>
    rw [List.range_succ, List.foldlM_append, List.foldlM_append]
    refine alike_bind (ih fun i b s' t' hi => hstep i b s' t' (Nat.lt_succ_of_lt hi))
      fun b s' t' hs _ h' => ?_
    rw [List.foldlM_cons, List.foldlM_cons]
    exact alike_bind (hstep n b s' t' (Nat.lt_succ_self n) hs h') fun c _ _ _ _ h'' => alike_pure h'' c

end LintDebt
