import OperandLifecycle.Proofs.Operations
import OperandLifecycle.Cluster.Client
/-!
# The cluster as a plain store

A world is plain when its calls reach the in-memory store and no fault is injected
(`World.Plain`). There every call of the manager is the store operation it names: a read
answers what the store answers and changes nothing, and a write runs the store operation on
the world's store.
-/

namespace OperandLifecycle.Cluster

open Json

/-- A world whose calls reach the in-memory store, with no fault injected. -/
structure World.Plain (w : World) : Prop where
  faults : w.faults = .none
  backend : w.backend = some .memory

theorem judge_none (op : Operation) (k : Value) :
    FaultPlan.none.judge op k = (.proceed, .none) := by
  simp only [FaultPlan.judge, FaultPlan.none, Injection.judge, FaultMode.counts]
  congr 2
  funext o
  split <;> rfl

section Plain

variable {w : World}

theorem run_check {α : Type} (r : Except Failure α) (w : World) :
    (ClusterM.check r).run.run w = (r, w) := rfl

theorem run_judge (hw : w.Plain) (op : Operation) (k : Value) :
    (judge op k).run.run w = (.ok .proceed, w) := by
  have h : (judge op k).run.run w =
      (.ok (w.faults.judge op k).1, { w with faults := (w.faults.judge op k).2 }) := rfl
  rw [h, hw.faults, judge_none]
  cases w
  cases hw.faults
  rfl

theorem run_unreachable (hw : w.Plain) : (unreachable).run.run w = (.ok false, w) := by
  have h : (unreachable).run.run w = (.ok (w.backend == some .unreachable), w) := rfl
  rw [h, hw.backend]
  rfl

theorem run_getObject (hw : w.Plain) (k n ns v : Value) :
    (getObject k n ns v).run.run w = ((w.store.get k n ns v).map (true, ·), w) := by
  simp only [getObject, run_run_bind, run_unreachable hw, Bool.false_eq_true, if_false,
    run_judge hw, Direct.get, run_run_getThe, run_check]
  cases w.store.get k n ns v <;> rfl

theorem run_listObjects (hw : w.Plain) (k ns v l f : Value) :
    (listObjects k ns v l f).run.run w = ((w.store.list k ns v l f).map (true, ·), w) := by
  simp only [listObjects, run_run_bind, run_unreachable hw, Bool.false_eq_true, if_false,
    run_judge hw, Direct.list, run_run_getThe, run_check]
  cases w.store.list k ns v l f <;> rfl

theorem run_now (w : World) : (ClusterM.now).run.run w = (.ok w.now, w) := rfl

theorem run_setting (w : World) (k : String) :
    (ClusterM.setting k).run.run w = (.ok (w.settings.get k), w) := rfl

theorem run_onStore {α : Type} (op : StoreM α) (w : World) :
    (ClusterM.onStore op).run.run w = ((op.run.run w.store).1, { w with store := (op.run.run w.store).2 }) := by
  simp only [ClusterM.onStore, run_run_bind, run_run_getThe]
  rfl

theorem run_create (hw : w.Plain) (res : Value) :
    ∃ n, (create res).run.run w =
      (((Store.create res (uidText (w.created + 1)) w.now).run.run w.store).1.map (true, ·),
        { w with store := ((Store.create res (uidText (w.created + 1)) w.now).run.run w.store).2,
                 created := n }) := by
  simp only [create, run_run_bind, run_unreachable hw, Bool.false_eq_true, if_false, run_judge hw,
    Direct.create, run_run_getThe, run_onStore]
  rcases (Store.create res (uidText (w.created + 1)) w.now).run.run w.store with ⟨_ | c, st⟩
  · exact ⟨w.created, rfl⟩
  · cases c
    · exact ⟨w.created, rfl⟩
    · exact ⟨w.created + 1, rfl⟩

theorem run_update (hw : w.Plain) (res : Value) :
    (update res).run.run w =
      (((Store.update res).run.run w.store).1,
        { w with store := ((Store.update res).run.run w.store).2 }) := by
  simp only [update, run_run_bind, run_unreachable hw, Bool.false_eq_true, if_false, run_judge hw,
    run_onStore]

theorem run_setStatus (hw : w.Plain) (kind name ns status v : Value) :
    (setStatus kind name ns status v).run.run w =
      (((Store.setStatus kind name ns status v).run.run w.store).1,
        { w with store := ((Store.setStatus kind name ns status v).run.run w.store).2 }) := by
  simp only [setStatus, run_run_bind, run_unreachable hw, Bool.false_eq_true, if_false,
    run_judge hw, run_onStore]

theorem run_deleteAll (hw : w.Plain) (k ns v l f : Value) :
    (deleteAll k ns v l f).run.run w =
      match w.store.list k ns v l f with
      | .error e => (.error e, w)
      | .ok listed =>
        (((Store.deleteListed k listed w.now).run.run w.store).1.map (true, ·),
          { w with store := ((Store.deleteListed k listed w.now).run.run w.store).2 }) := by
  simp only [deleteAll, run_run_bind, run_unreachable hw, Bool.false_eq_true, if_false,
    run_judge hw, deleteSelected, run_listObjects hw, run_now, run_onStore]
  rcases w.store.list k ns v l f with e | listed
  · rfl
  · simp only [Except.map]
    rcases (Store.deleteListed k listed w.now).run.run w.store with ⟨_ | r, st⟩ <;> rfl

end Plain

end OperandLifecycle.Cluster
