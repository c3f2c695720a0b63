import OperandLifecycle.Proofs.Cluster
/-!
# Reading the cluster

Most questions the manager asks of the cluster only read it. In a plain world (`World.Plain`)
such a program changes nothing and answers what a computation on the store answers: it *reads
as* that computation (`ReadsAs`). A relation `R` between the two answers lets the program keep
bookkeeping that the computation does without, such as a cache of lookups.

The rules follow the program's shape: `pure`, `bind`, checks and failures, and a loop that
never stops early reads as a fold (`ReadsAs.forIn`). The manager's reads of objects, listings
and settings read as the store's own answers (`readsAs_getObject`, `readsAs_listObjects`,
`readsAs_setting`).
-/

namespace OperandLifecycle

variable {α β γ δ : Type}

/-! ### Answers that may fail

A computation on the store answers `.ok` or `.error`; these rules let `simp` run it. -/

section Answers

variable {ε : Type}

@[simp] theorem except_pure (a : α) : (pure a : Except ε α) = .ok a := rfl

@[simp] theorem except_throw (e : ε) : (throw e : Except ε α) = .error e := rfl

@[simp] theorem except_ok_bind (a : α) (f : α → Except ε β) : (Except.ok a >>= f) = f a := rfl

@[simp] theorem except_error_bind (e : ε) (f : α → Except ε β) :
    (Except.error e >>= f) = .error e := rfl

@[simp] theorem except_map_ok (f : α → β) (a : α) : (f <$> (Except.ok a : Except ε α)) = .ok (f a) :=
  rfl

@[simp] theorem except_map_error (f : α → β) (e : ε) :
    (f <$> (Except.error e : Except ε α)) = .error e := rfl

end Answers

namespace Cluster

open Json

/-- Two answers agree up to `R`: both succeed with related results, or both stop with the same
failure. -/
def Agree (R : α → β → Prop) : Except Failure α → Except Failure β → Prop
  | .ok a, .ok b => R a b
  | .error e, .error e' => e = e'
  | _, _ => False

theorem agree_eq_iff {x y : Except Failure α} : Agree Eq x y ↔ x = y := by
  cases x <;> cases y <;> simp [Agree]

/-- Run in `w`, the program changes nothing and answers as `r` does, up to `R`. -/
structure ReadsAs (R : α → β → Prop) (x : ClusterM α) (r : Except Failure β) (w : World) :
    Prop where
  world : (x.run.run w).2 = w
  answer : Agree R (x.run.run w).1 r

/-- A loop body that goes on to a state related to `c`. -/
def Yields (R : β → γ → Prop) (s : ForInStep β) (c : γ) : Prop := ∃ b, s = .yield b ∧ R b c

namespace ReadsAs

variable {w : World} {R : α → β → Prop} {S : γ → δ → Prop}

theorem of_run {x : ClusterM α} {r : Except Failure α} (h : x.run.run w = (r, w)) :
    ReadsAs Eq x r w :=
  ⟨by rw [h], by rw [h]; exact agree_eq_iff.2 rfl⟩

theorem run_eq {x : ClusterM α} {r : Except Failure α} (h : ReadsAs Eq x r w) :
    x.run.run w = (r, w) :=
  Prod.ext (agree_eq_iff.1 h.answer) h.world

theorem mono {x : ClusterM α} {r : Except Failure β} {R' : α → β → Prop} (h : ReadsAs R x r w)
    (hR : ∀ a b, R a b → R' a b) : ReadsAs R' x r w := by
  refine ⟨h.world, ?_⟩
  have ha := h.answer
  generalize (x.run.run w).1 = y at ha ⊢
  cases y <;> cases r <;> simp only [Agree] at ha ⊢
  · exact ha
  · exact hR _ _ ha

theorem pure' {a : α} {b : β} (h : R a b) : ReadsAs R (pure a) (pure b) w := ⟨rfl, h⟩

theorem throw' (e : Failure) : ReadsAs R (throw e : ClusterM α) (.error e) w := ⟨rfl, rfl⟩

theorem throw_bind (e : Failure) (f : α → ClusterM γ) :
    ReadsAs S (throw e >>= f : ClusterM γ) (.error e) w := ⟨rfl, rfl⟩

theorem check (r : Except Failure α) : ReadsAs Eq (ClusterM.check r) r w :=
  of_run (run_check r w)

/-- The continuation is read at every pair of related answers, knowing the computation's. -/
theorem bind {x : ClusterM α} {r : Except Failure β} {f : α → ClusterM γ}
    {g : β → Except Failure δ} (hx : ReadsAs R x r w)
    (hf : ∀ a b, r = .ok b → R a b → ReadsAs S (f a) (g b) w) :
    ReadsAs S (x >>= f) (r >>= g) w := by
  obtain ⟨hw, ha⟩ := hx
  have hrun := run_run_bind x f w
  rcases hxw : x.run.run w with ⟨e | a, w'⟩
  · rw [hxw] at hw ha hrun
    cases r with
    | error e' =>
      cases hw
      exact ⟨by rw [hrun], by rw [hrun]; exact ha⟩
    | ok b => exact absurd ha (by simp [Agree])
  · rw [hxw] at hw ha hrun
    cases r with
    | error e' => exact absurd ha (by simp [Agree])
    | ok b =>
      cases hw
      obtain ⟨hw', ha'⟩ := hf a b rfl ha
      exact ⟨by rw [hrun, hw'], by rw [hrun]; exact ha'⟩

theorem map {x : ClusterM α} {r : Except Failure β} (f : α → γ) (g : β → δ)
    (h : ReadsAs R x r w) (hfg : ∀ a b, R a b → S (f a) (g b)) : ReadsAs S (f <$> x) (g <$> r) w := by
  rw [map_eq_pure_bind, map_eq_pure_bind]
  exact bind h (fun a b _ hab => pure' (hfg a b hab))

/-- A program that ends by reshaping its answer reads as the same computation. -/
theorem bind_reshape {x : ClusterM α} {r : Except Failure β} {f : α → γ} {S : γ → β → Prop}
    (hx : ReadsAs R x r w) (hf : ∀ a b, R a b → S (f a) b) :
    ReadsAs S (x >>= fun a => pure (f a)) r w := by
  rw [← bind_pure r]
  exact bind hx (fun a b _ hab => pure' (hf a b hab))

/-- A first step that reads as a value: the program reads as its continuation at that value. -/
theorem bind_left {x : ClusterM α} {a : α} {f : α → ClusterM γ} {r : Except Failure δ}
    (hx : ReadsAs Eq x (pure a) w) (hf : ReadsAs S (f a) r w) : ReadsAs S (x >>= f) r w := by
  have h := bind (g := fun _ => r) hx (fun a' b hb hab => by
    cases hb
    cases hab
    exact hf)
  rwa [pure_bind] at h

/-- A step that reads as a value already computed. -/
theorem bind_pure {x : ClusterM α} {b : β} {f : α → ClusterM γ} {g : β → Except Failure δ}
    (hx : ReadsAs R x (pure b) w) (hf : ∀ a, R a b → ReadsAs S (f a) (g b) w) :
    ReadsAs S (x >>= f) (g b) w := by
  have h := bind (g := g) hx (fun a b' hb' hab => by
    cases hb'
    exact hf a hab)
  rwa [pure_bind] at h

/-- A loop that only ever goes on reads as a fold whose step reads as its body. -/
theorem forIn {ρ : Type} (R : β → γ → Prop) {xs : List ρ} {f : ρ → β → ClusterM (ForInStep β)}
    {g : γ → ρ → Except Failure γ} {b : β} {c : γ} (h₀ : R b c)
    (hf : ∀ x ∈ xs, ∀ b c, R b c → ReadsAs (Yields R) (f x b) (g c x) w) :
    ReadsAs R (forIn xs b f) (xs.foldlM g c) w := by
  induction xs generalizing b c with
  | nil => exact pure' h₀
  | cons x xs ih =>
    rw [List.forIn_cons, List.foldlM_cons]
    refine bind (hf x (List.mem_cons_self ..) b c h₀) ?_
    rintro s c' - ⟨b', rfl, hb'⟩
    exact ih hb' (fun y hy => hf y (List.mem_cons_of_mem _ hy))

end ReadsAs

section Plain

variable {w : World}

/-- A read answers that it succeeded, with what the store holds. -/
theorem readsAs_getObject (hw : w.Plain) (k n ns v : Value) :
    ReadsAs (fun p o => p = (true, o)) (getObject k n ns v) (w.store.get k n ns v) w := by
  refine ⟨by rw [run_getObject hw], ?_⟩
  rw [run_getObject hw]
  cases w.store.get k n ns v <;> simp [Agree, Except.map]

/-- A listing answers that it succeeded, with what the store lists. -/
theorem readsAs_listObjects (hw : w.Plain) (k ns v l f : Value) :
    ReadsAs (fun p os => p = (true, os)) (listObjects k ns v l f) (w.store.list k ns v l f) w := by
  refine ⟨by rw [run_listObjects hw], ?_⟩
  rw [run_listObjects hw]
  cases w.store.list k ns v l f <;> simp [Agree, Except.map]

theorem readsAs_setting (k : String) : ReadsAs Eq (ClusterM.setting k) (pure (w.settings.get k)) w :=
  ReadsAs.of_run (run_setting w k)

end Plain

end Cluster

end OperandLifecycle
