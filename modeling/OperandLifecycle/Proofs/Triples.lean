import Mathlib
/-!
# Triples over a state with failures

The store, the cluster, a reconcile and a request reconcile are all run in a monad of the form
`ExceptT ε (StateM σ)`: a failure stops the run and keeps the state reached. A triple
`⦃P⦄ x ⦃Q⦄` over such a monad says that from every state where `P` holds, the run ends in a state
and an outcome where `Q` holds: its success part for a result, its failure part for a failure.
`triple_iff_run` states exactly that, so a spec proved with `mvcgen` can be read back as a fact
about one run, and a fact about one run can be packaged as a spec.
-/

open Std.Do

namespace OperandLifecycle

variable {σ ε α : Type}

theorem wp_run (x : ExceptT ε (StateM σ) α) (Q : PostCond α (.except ε (.arg σ .pure))) (s : σ) :
    wp⟦x⟧ Q s = match x.run.run s with
      | (.ok a, s') => Q.1 a s'
      | (.error e, s') => Q.2.1 e s' := by
  rcases h : x.run.run s with ⟨_ | a, s'⟩ <;>
    simp only [WP.wp, PredTrans.apply, PredTrans.pushExcept, PredTrans.pushArg, StateT.run,
      ExceptT.run, Id.run, pure] at h ⊢ <;>
    simp [h, PredTrans.pure]

theorem triple_iff_run (x : ExceptT ε (StateM σ) α) (P : Assertion (.except ε (.arg σ .pure)))
    (Q : PostCond α (.except ε (.arg σ .pure))) :
    ⦃P⦄ x ⦃Q⦄ ↔ ∀ s, (P s).down → (match x.run.run s with
      | (.ok a, s') => Q.1 a s'
      | (.error e, s') => Q.2.1 e s').down := by
  simp only [Triple, SPred.entails_cons, SPred.entails_nil, wp_run]

theorem run_run_bind {β : Type} (x : ExceptT ε (StateM σ) α) (f : α → ExceptT ε (StateM σ) β)
    (s : σ) :
    (x >>= f).run.run s = match x.run.run s with
      | (.ok a, s') => (f a).run.run s'
      | (.error e, s') => (.error e, s') := by
  simp only [ExceptT.run_bind, StateT.run_bind]
  rcases x.run.run s with ⟨_ | a, s'⟩ <;> rfl

/-- A run of `x >>= f` that succeeds ran `x` to success first. -/
theorem run_run_bind_ok {β : Type} {x : ExceptT ε (StateM σ) α} {f : α → ExceptT ε (StateM σ) β}
    {s s'' : σ} {b : β} (h : (x >>= f).run.run s = (.ok b, s'')) :
    ∃ a s', x.run.run s = (.ok a, s') ∧ (f a).run.run s' = (.ok b, s'') := by
  rw [run_run_bind] at h
  rcases hx : x.run.run s with ⟨_ | a, s'⟩ <;> rw [hx] at h
  · cases h
  · exact ⟨a, s', rfl, h⟩

theorem run_run_map {β : Type} (f : α → β) (x : ExceptT ε (StateM σ) α) (s : σ) :
    (f <$> x).run.run s = match x.run.run s with
      | (.ok a, s') => (.ok (f a), s')
      | (.error e, s') => (.error e, s') := by
  simp only [ExceptT.run_map, StateT.run_map]
  rcases x.run.run s with ⟨_ | a, s'⟩ <;> rfl

theorem run_run_pure (a : α) (s : σ) : (pure a : ExceptT ε (StateM σ) α).run.run s = (.ok a, s) :=
  rfl

theorem run_run_getThe (s : σ) : (getThe σ : ExceptT ε (StateM σ) σ).run.run s = (.ok s, s) :=
  rfl

theorem run_run_throw (e : ε) (s : σ) :
    (throw e : ExceptT ε (StateM σ) α).run.run s = (.error e, s) :=
  rfl

theorem run_run_modify (f : σ → σ) (s : σ) :
    (modify f : ExceptT ε (StateM σ) PUnit).run.run s = (.ok ⟨⟩, f s) := rfl

theorem run_run_tryCatch (x : ExceptT ε (StateM σ) α) (h : ε → ExceptT ε (StateM σ) α) (s : σ) :
    (tryCatch x h).run.run s = match x.run.run s with
      | (.ok a, s') => (.ok a, s')
      | (.error e, s') => (h e).run.run s' := by
  simp only [ExceptT.run_tryCatch, StateT.run_bind]
  rcases x.run.run s with ⟨_ | a, s'⟩ <;> rfl

end OperandLifecycle
