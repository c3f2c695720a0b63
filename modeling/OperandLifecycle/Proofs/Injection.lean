import OperandLifecycle.Proofs.Reads
/-!
# Reading the cluster under failure injection

A fault plan decides, call by call, whether a call goes through, answers its failure value or
raises; it never makes a read answer what the store does not hold. So a program that only
reads *reads under faults as* a computation on the store (`ReadsUnder`): whatever the plan,
the run changes nothing but the plan, and whatever it answers, the computation answers too. A
fault can make the program fail where the computation answers, never answer otherwise.

The rules follow those of `ReadsAs`. A call's answer says whether it went through
(`readsUnder_getObject`, `readsUnder_listObjects`); the programs check that before they use
what it found.
-/

namespace OperandLifecycle.Cluster

open Json

variable {α β γ δ : Type}

/-- The world with another fault plan. -/
def World.withFaults (w : World) (p : FaultPlan) : World := { w with faults := p }

@[simp] theorem World.withFaults_withFaults (w : World) (p q : FaultPlan) :
    (w.withFaults p).withFaults q = w.withFaults q := rfl

@[simp] theorem World.store_withFaults (w : World) (p : FaultPlan) :
    (w.withFaults p).store = w.store := rfl

@[simp] theorem World.settings_withFaults (w : World) (p : FaultPlan) :
    (w.withFaults p).settings = w.settings := rfl

/-- Under every fault plan the program changes nothing but the plan, and when it answers, `r`
answers too, up to `R`. -/
structure ReadsUnder (R : α → β → Prop) (x : ClusterM α) (r : Except Failure β) (w : World) :
    Prop where
  world : ∀ p, ∃ q, (x.run.run (w.withFaults p)).2 = w.withFaults q
  answer : ∀ p a, (x.run.run (w.withFaults p)).1 = .ok a → ∃ b, r = .ok b ∧ R a b

namespace ReadsUnder

variable {w : World} {R : α → β → Prop} {S : γ → δ → Prop}

theorem pure' {a : α} {b : β} (h : R a b) : ReadsUnder R (pure a) (pure b) w :=
  ⟨fun p => ⟨p, rfl⟩, fun _ a' h' => ⟨b, rfl, by cases h'; exact h⟩⟩

/-- A program that fails reads as anything. -/
theorem throw' (e : Failure) (r : Except Failure β) : ReadsUnder R (throw e : ClusterM α) r w :=
  ⟨fun p => ⟨p, rfl⟩, fun _ _ h => by cases h⟩

theorem throw_bind (e : Failure) (f : α → ClusterM γ) (r : Except Failure δ) :
    ReadsUnder S (throw e >>= f : ClusterM γ) r w :=
  ⟨fun p => ⟨p, rfl⟩, fun _ _ h => by cases h⟩

theorem check (r : Except Failure α) : ReadsUnder Eq (ClusterM.check r) r w :=
  ⟨fun p => ⟨p, rfl⟩, fun _ a h => ⟨a, h, rfl⟩⟩

theorem bind {x : ClusterM α} {r : Except Failure β} {f : α → ClusterM γ}
    {g : β → Except Failure δ} (hx : ReadsUnder R x r w)
    (hf : ∀ a b, r = .ok b → R a b → ReadsUnder S (f a) (g b) w) :
    ReadsUnder S (x >>= f) (r >>= g) w := by
  constructor
  · intro p
    rw [run_run_bind]
    obtain ⟨q, hq⟩ := hx.world p
    rcases hxw : x.run.run (w.withFaults p) with ⟨_ | a, w'⟩
    · rw [hxw] at hq
      exact ⟨q, hq⟩
    · rw [hxw] at hq
      obtain ⟨b, hb, hab⟩ := hx.answer p a (by rw [hxw])
      cases hq
      exact (hf a b hb hab).world q
  · intro p c hc
    rw [run_run_bind] at hc
    obtain ⟨q, hq⟩ := hx.world p
    rcases hxw : x.run.run (w.withFaults p) with ⟨_ | a, w'⟩
    · rw [hxw] at hc
      cases hc
    · rw [hxw] at hc hq
      cases hq
      obtain ⟨b, hb, hab⟩ := hx.answer p a (by rw [hxw])
      obtain ⟨d, hd, hcd⟩ := (hf a b hb hab).answer q c hc
      exact ⟨d, by rw [hb]; exact hd, hcd⟩

theorem map {x : ClusterM α} {r : Except Failure β} (f : α → γ) (g : β → δ)
    (h : ReadsUnder R x r w) (hfg : ∀ a b, R a b → S (f a) (g b)) :
    ReadsUnder S (f <$> x) (g <$> r) w := by
  rw [map_eq_pure_bind, map_eq_pure_bind]
  exact bind h (fun a b _ hab => pure' (hfg a b hab))

/-- A program that ends by reshaping its answer reads as the same computation. -/
theorem bind_reshape {x : ClusterM α} {r : Except Failure β} {f : α → γ} {S : γ → β → Prop}
    (hx : ReadsUnder R x r w) (hf : ∀ a b, R a b → S (f a) b) :
    ReadsUnder S (x >>= fun a => pure (f a)) r w := by
  rw [← bind_pure r]
  exact bind hx (fun a b _ hab => pure' (hf a b hab))

/-- A step that reads as a value already computed. -/
theorem bind_pure {x : ClusterM α} {b : β} {f : α → ClusterM γ} {g : β → Except Failure δ}
    (hx : ReadsUnder R x (pure b) w) (hf : ∀ a, R a b → ReadsUnder S (f a) (g b) w) :
    ReadsUnder S (x >>= f) (g b) w := by
  have h := bind (g := g) hx (fun a b' hb' hab => by
    cases hb'
    exact hf a hab)
  rwa [pure_bind] at h

/-- A loop that only ever goes on reads as a fold whose step reads as its body. -/
theorem forIn {ρ : Type} (R : β → γ → Prop) {xs : List ρ} {f : ρ → β → ClusterM (ForInStep β)}
    {g : γ → ρ → Except Failure γ} {b : β} {c : γ} (h₀ : R b c)
    (hf : ∀ x ∈ xs, ∀ b c, R b c → ReadsUnder (Yields R) (f x b) (g c x) w) :
    ReadsUnder R (forIn xs b f) (xs.foldlM g c) w := by
  induction xs generalizing b c with
  | nil => exact pure' h₀
  | cons x xs ih =>
    rw [List.forIn_cons, List.foldlM_cons]
    refine bind (hf x (List.mem_cons_self ..) b c h₀) ?_
    rintro s c' - ⟨b', rfl, hb'⟩
    exact ih hb' (fun y hy => hf y (List.mem_cons_of_mem _ hy))

end ReadsUnder

/-! ### The calls -/

section Calls

variable {w : World}

theorem run_judge_any (w : World) (op : Operation) (k : Value) :
    (judge op k).run.run w = (.ok (w.faults.judge op k).1, w.withFaults (w.faults.judge op k).2) :=
  rfl

theorem run_unreachable_any (w : World) :
    (unreachable).run.run w = (.ok (w.backend == some .unreachable), w) := rfl

/-- A read under any plan: an unreachable backend fails it, and otherwise the plan's verdict
decides whether it reaches the store. -/
theorem run_getObject_any (w : World) (k n ns v : Value) :
    (getObject k n ns v).run.run w =
      if w.backend == some .unreachable then (.error unreachableFailure, w)
      else match (w.faults.judge .get k).1 with
        | .fail => (.ok (false, none), w.withFaults (w.faults.judge .get k).2)
        | .raise m => (.error (raisedFault m), w.withFaults (w.faults.judge .get k).2)
        | _ => ((w.store.get k n ns v).map (true, ·), w.withFaults (w.faults.judge .get k).2) := by
  simp only [getObject, run_run_bind, run_unreachable_any]
  cases w.backend == some .unreachable
  · simp only [Bool.false_eq_true, if_false, run_run_bind, run_judge_any]
    cases (w.faults.judge .get k).1 <;>
      simp only [Direct.get, run_run_bind, run_run_getThe, run_check, World.withFaults] <;>
      (try rfl) <;> cases w.store.get k n ns v <;> rfl
  · rfl

/-- A listing under any plan, as a read. -/
theorem run_listObjects_any (w : World) (k ns v l f : Value) :
    (listObjects k ns v l f).run.run w =
      if w.backend == some .unreachable then (.error unreachableFailure, w)
      else match (w.faults.judge .filter k).1 with
        | .fail => (.ok (false, []), w.withFaults (w.faults.judge .filter k).2)
        | .raise m => (.error (raisedFault m), w.withFaults (w.faults.judge .filter k).2)
        | _ => ((w.store.list k ns v l f).map (true, ·), w.withFaults (w.faults.judge .filter k).2) := by
  simp only [listObjects, run_run_bind, run_unreachable_any]
  cases w.backend == some .unreachable
  · simp only [Bool.false_eq_true, if_false, run_run_bind, run_judge_any]
    cases (w.faults.judge .filter k).1 <;>
      simp only [Direct.list, run_run_bind, run_run_getThe, run_check, World.withFaults] <;>
      (try rfl) <;> cases w.store.list k ns v l f <;> rfl
  · rfl

/-- A read answers whether it went through and, if it did, what the store holds. -/
theorem readsUnder_getObject (k n ns v : Value) :
    ReadsUnder (fun p found => p.1 = true → found = .ok p.2) (getObject k n ns v)
      (pure (w.store.get k n ns v)) w := by
  refine ⟨fun p => ?_, fun p a h => ⟨_, rfl, fun hok => ?_⟩⟩
  · rw [run_getObject_any]
    split
    · exact ⟨p, rfl⟩
    · split <;> exact ⟨_, rfl⟩
  · rw [run_getObject_any] at h
    split at h
    · cases h
    · split at h
      · cases h
        cases hok
      · cases h
      all_goals
        cases hg : w.store.get k n ns v <;> simp only [World.store_withFaults, hg] at h <;> cases h
        rfl

/-- A listing answers whether it went through and, if it did, what the store lists. -/
theorem readsUnder_listObjects (k ns v l f : Value) :
    ReadsUnder (fun p found => p.1 = true → found = .ok p.2) (listObjects k ns v l f)
      (pure (w.store.list k ns v l f)) w := by
  refine ⟨fun p => ?_, fun p a h => ⟨_, rfl, fun hok => ?_⟩⟩
  · rw [run_listObjects_any]
    split
    · exact ⟨p, rfl⟩
    · split <;> exact ⟨_, rfl⟩
  · rw [run_listObjects_any] at h
    split at h
    · cases h
    · split at h
      · cases h
        cases hok
      · cases h
      all_goals
        cases hg : w.store.list k ns v l f <;> simp only [World.store_withFaults, hg] at h <;> cases h
        rfl

theorem readsUnder_setting (k : String) :
    ReadsUnder Eq (ClusterM.setting k) (pure (w.settings.get k)) w :=
  ⟨fun p => ⟨p, rfl⟩, fun _ _ h => ⟨_, rfl, by cases h; rfl⟩⟩

end Calls

end OperandLifecycle.Cluster
