import OperandLifecycle.Json.Display
import OperandLifecycle.Failure
/-!
# Injected faults

To exercise the manager against a misbehaving cluster, each of the six cluster operations
(`Operation`) can be given a `FaultMode`:

* `pass` lets calls through;
* `always` answers every call with the operation's failure answer;
* `forKind k` answers the failure for calls about kind `k`, and lets the others through;
* `onCall n` answers the failure on the `n`-th call after the mode was set;
* `raising m` stops every call with a runtime error of text `m`;
* `raisingOnCall n` stops the `n`-th call with the runtime error `Raising!`;
* `recreate k` (deletion only) lets the deletion through and then files every deleted object
  of kind `k` (any kind for `none`) again, as a controller outside the manager would.

A `FaultPlan` gives each operation its mode and counts the calls of the counting modes; a mode
set anew starts its count again. `FaultMode.ofSpec` reads a mode from its JSON spelling.
-/
namespace OperandLifecycle.Cluster

open Json

/-- The operations of the cluster that faults can be injected into. -/
inductive Operation where
  | get | filter | create | update | delete | setStatus
  deriving DecidableEq, Repr, Inhabited

/-- The name of an operation in fault specs. -/
def Operation.word : Operation → String
  | .get => "get"
  | .filter => "filter"
  | .create => "create"
  | .update => "update"
  | .delete => "delete"
  | .setStatus => "set_status"

/-- Every operation. -/
def Operation.all : List Operation := [.get, .filter, .create, .update, .delete, .setStatus]

/-- The operation of a name. -/
def Operation.ofWord? (w : String) : Option Operation := Operation.all.find? (·.word == w)

/-- How calls of one operation misbehave. -/
inductive FaultMode where
  | pass
  | always
  | forKind (kind : Value)
  | onCall (n : Value)
  | raising (message : Value)
  | raisingOnCall (n : Value)
  | recreate (kind : Option Value)
  deriving Inhabited

/-- Whether a mode counts the calls it sees. -/
def FaultMode.counts : FaultMode → Bool
  | .onCall _ | .raisingOnCall _ => true
  | _ => false

/-- The failure of a spec that names no mode. -/
def badSpec (op : String) : Failure := .raised .valueError ("bad fail spec for " ++ op)

/-- Reads a mode: `null` and `false` pass, `true` always fails, and an object names its mode by
the first of the keys `kind`, `nth`, `raise`, `raise_once` and (for deletion) `recreate` that it
has. -/
def FaultMode.ofSpec (op : Operation) (spec : Value) : Except Failure FaultMode :=
  match spec with
  | .null | .bool false => .ok .pass
  | .bool true => .ok .always
  | .obj fs =>
    match Fields.get? fs "kind", Fields.get? fs "nth", Fields.get? fs "raise",
      Fields.get? fs "raise_once" with
    | some k, _, _, _ => .ok (.forKind k)
    | none, some n, _, _ => .ok (.onCall n)
    | none, none, some m, _ => .ok (.raising m)
    | none, none, none, some n => .ok (.raisingOnCall n)
    | none, none, none, none =>
      match op, Fields.get? fs "recreate" with
      | .delete, some (.bool true) => .ok (.recreate none)
      | .delete, some k => .ok (.recreate (some k))
      | _, _ => .error (badSpec op.word)
  | _ => .error (badSpec op.word)

/-- An operation's mode with the number of calls it has counted. -/
structure Injection where
  mode : FaultMode
  calls : Nat
  deriving Inhabited

/-- The modes of all operations. -/
structure FaultPlan where
  injections : Operation → Injection

/-- The plan under which every call goes through. -/
def FaultPlan.none : FaultPlan := ⟨fun _ => ⟨.pass, 0⟩⟩

/-- Gives an operation a new mode, with a fresh count. -/
def FaultPlan.set (p : FaultPlan) (op : Operation) (mode : FaultMode) : FaultPlan :=
  ⟨fun o => if o = op then ⟨mode, 0⟩ else p.injections o⟩

/-- Reads the modes a spec object gives, operation by operation, onto a plan. -/
def FaultPlan.apply (p : FaultPlan) (spec : Value) : Except Failure FaultPlan :=
  match spec with
  | .obj fs => fs.foldlM (fun p (name, s) => do
      match Operation.ofWord? name with
      | some op => pure (p.set op (← FaultMode.ofSpec op s))
      | Option.none => throw (.raised .valueError ("unknown fail method " ++ name))) p
  | .null => .ok p
  | other => .error (.raised .attributeError ("'" ++ other.typeName ++ "' object has no attribute 'items'"))

/-- What one call meets. -/
inductive Verdict where
  /-- The call goes through. -/
  | proceed
  /-- The call answers the operation's failure answer. -/
  | fail
  /-- The call stops with a runtime error of this text. -/
  | raise (message : String)
  /-- The deletion goes through and the deleted objects are filed again. -/
  | refile

/-- The verdict on a call about `kind` under an injection, and the injection after the call. -/
def Injection.judge (inj : Injection) (kind : Value) : Verdict × Injection :=
  let calls := if inj.mode.counts then inj.calls + 1 else inj.calls
  let verdict := match inj.mode with
    | .pass => .proceed
    | .always => .fail
    | .forKind k => if kind.equiv k then .fail else .proceed
    | .onCall n => if (Value.int calls).equiv n then .fail else .proceed
    | .raising m => .raise m.display
    | .raisingOnCall n => if (Value.int calls).equiv n then .raise "Raising!" else .proceed
    | .recreate none => .refile
    | .recreate (some k) => if kind.equiv k then .refile else .proceed
  (verdict, { inj with calls := calls })

/-- The verdict on a call of an operation about `kind`, and the plan after the call. -/
def FaultPlan.judge (p : FaultPlan) (op : Operation) (kind : Value) : Verdict × FaultPlan :=
  let (v, inj) := (p.injections op).judge kind
  (v, ⟨fun o => if o = op then inj else p.injections o⟩)

end OperandLifecycle.Cluster
