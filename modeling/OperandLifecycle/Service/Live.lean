import OperandLifecycle.Service.Answer
import OperandLifecycle.Service.Request
import OperandLifecycle.Service.Library
import OperandLifecycle.Cluster.Live
/-!
# Calls on a live cluster

The `openshift` operation makes calls of the live manager, each against a client of its own
that answers from the call's script of replies. Each call is answered with the manager's
answer as a list (or its failure) and the log of what the client was asked.
-/
namespace OperandLifecycle.Service

open Json Cluster

/-- Answers one call of the live manager by its method. -/
def liveMethod (retries : Value) (call : Request) : ApiM Value := do
  let need (k : String) : ApiM Value := ApiM.check (call.need k)
  let pair (a b : Value) : Value := .arr [a, b]
  match ← need "method" with
  | .str "get" =>
    let kind ← need "kind"
    let name ← need "name"
    let (ok, content) ← currentState kind name (call.opt "namespace") (call.opt "api_version")
    pure (pair (.bool ok) (content.getD .null))
  | .str "filter" =>
    let kind ← need "kind"
    let (ok, items) ← listState kind (call.opt "namespace") (call.opt "api_version")
      (call.opt "label_selector") (call.opt "field_selector")
    pure (pair (.bool ok) items)
  | .str "create" =>
    let (ok, changed) ← createLive (← need "resource")
    pure (pair (.bool ok) (.bool changed))
  | .str "update" =>
    let (ok, changed) ← updateLive retries (← need "resource")
    pure (pair (.bool ok) (.bool changed))
  | .str "delete" =>
    let kind ← need "kind"
    let (ok, deleted) ← deleteAllOf kind (call.opt "namespace") (call.opt "api_version")
      (call.opt "label_selector") (call.opt "field_selector")
    pure (pair (.bool ok) (.bool deleted))
  | .str "set_status" =>
    let kind ← need "kind"
    let name ← need "name"
    let ns := call.opt "namespace"
    let status ← need "status"
    let (ok, changed) ← setStatusLive retries kind name ns status (call.opt "api_version")
    pure (pair (.bool ok) (.bool changed))
  | other => throw (.raised .valueError ("unknown openshift method " ++ other.display))

/-- Answers one call with its result or failure and the log of the client it ran against. -/
def liveCall (retries unserved ambiguous : Value) (call : Value) : Value :=
  let args : Request := ⟨call.fields?.getD []⟩
  let run : ApiM Value := do
    if !call.isObj then throw (notAnObject call "get")
    let script ← ApiM.check ((args.get? "responses").getD (.arr [])).iterate
    modifyThe Api (fun a => { a with script := script })
    liveMethod retries args
  let (res, api) := (run.run).run (Api.start [] unserved ambiguous)
  let entry : Value := match res with
    | .ok v => .obj [("result", v)]
    | .error f => .obj [("error", .str f.kindName), ("message", .str f.message)]
  entry.set "client" (.arr api.log)

/-- Runs the calls of a request, each against a fresh client. -/
def runLive (r : Request) : Except Failure Value := do
  let settings ← settingsArg r
  let calls ← match r.get? "calls" with
    | some v => v.iterate
    | none => pure []
  let unserved := (r.get? "unserved").getD (.arr [])
  let ambiguous := (r.get? "ambiguous").getD (.arr [])
  let retries := settings.get "deploy_retries"
  pure (.obj [("calls", .arr (calls.map (liveCall retries unserved ambiguous)))])

end OperandLifecycle.Service
