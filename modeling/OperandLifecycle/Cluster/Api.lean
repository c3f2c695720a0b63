import OperandLifecycle.Json.Path
import OperandLifecycle.Json.Display
import OperandLifecycle.Failure
/-!
# A cluster API that answers from a script

The live manager reaches the cluster through an API client. Here the client answers from a
script of replies, one per call on a resource handle, and keeps a log of every call it was
asked to make, so that what the manager asked for can be checked call by call.

* `Api.resourceHandle` looks up the handle of a kind; a kind the server does not serve, or
  serves more than once, has none.
* `Handle.call` makes one call on a handle. It takes the next reply of the script, and the
  empty object once the script has run out.
* A reply is an object, nothing at all, or a refusal (`Refusal`). A refusal with an HTTP
  status comes in classes (`StatusError`); the manager tells apart only "not found",
  "forbidden" and "conflict".
-/
namespace OperandLifecycle.Cluster

open Json

/-! ## Replies -/

/-- The classes of API errors that carry an HTTP status. -/
inductive StatusError where
  | notFound
  | forbidden
  | conflict
  /-- Any other class, by its name. -/
  | other (name : String)
  deriving DecidableEq, Inhabited

/-- The name of an error class. -/
def StatusError.name : StatusError → String
  | .notFound => "NotFoundError"
  | .forbidden => "ForbiddenError"
  | .conflict => "ConflictError"
  | .other n => n

/-- The class names of the errors that carry a status, other than the three the manager
tells apart. -/
def StatusError.otherNames : List String :=
  ["BadRequestError", "GoneError", "InternalServerError", "MethodNotAllowedError",
   "ServerTimeoutError", "ServiceUnavailableError", "TooManyRequestsError",
   "UnauthorizedError", "UnprocessibleEntityError", "DynamicApiError"]

/-- The error class of a name, if it is one. -/
def StatusError.named (name : String) : Option StatusError :=
  if name == "NotFoundError" then some .notFound
  else if name == "ForbiddenError" then some .forbidden
  else if name == "ConflictError" then some .conflict
  else if StatusError.otherNames.contains name then some (.other name)
  else none

/-- Why a call was not answered. -/
inductive Refusal where
  /-- An API error of a class, with its status code. -/
  | status (e : StatusError) (code : Value)
  /-- A bare API exception with its status code and reason. -/
  | plain (code reason : Value)
  /-- The connection broke, with its message. -/
  | broken (msg : Value)
  /-- The script's reply cannot be read. -/
  | unreadable (reply : Value)
  deriving Inhabited

/-- The failure a refusal raises, with the text its class gives it. -/
def Refusal.failure : Refusal → Failure
  | .status e code => .raised (.apiError e.name) (code.display ++ "\nReason: " ++ e.name)
  | .plain code reason =>
    .raised (.apiError "ApiException") ("(" ++ code.display ++ ")\nReason: " ++ reason.display ++ "\n")
  | .broken msg => .raised .runtimeError msg.display
  | .unreadable reply => notAnObject reply "get"

/-- Whether a refusal is a conflict. -/
def Refusal.isConflict : Refusal → Bool
  | .status .conflict _ => true
  | _ => false

/-- What a call answers: an object's content, nothing (`none`), or a refusal. -/
abbrev Reply := Except Refusal (Option Value)

/-- Reads a reply of the script: an `error` member names the refusal, otherwise the `result`
member is the content, `null` standing for nothing. -/
def Reply.read (v : Value) : Reply :=
  match v with
  | .obj fs =>
    match Fields.get? fs "error" with
    | some e =>
      let code := (Fields.get? fs "status").getD .null
      match e with
      | .str name =>
        match StatusError.named name with
        | some c => .error (.status c code)
        | none =>
          if name == "ApiException" then
            .error (.plain code ((Fields.get? fs "reason").getD (.str "ApiException")))
          else .error (.broken ((Fields.get? fs "message").getD .null))
      | _ => .error (.broken ((Fields.get? fs "message").getD .null))
    | none =>
      match (Fields.get? fs "result").getD .null with
      | .null => .ok none
      | content => .ok (some content)
  | other => .error (.unreadable other)

/-- The failure of reading the content of nothing. -/
def nothingToRead : Failure := notAnObject .null "to_dict"

/-! ## The client -/

/-- The client's state: the replies still to give, the calls made so far, and the kinds the
server does not serve or serves more than once. -/
structure Api where
  /-- The replies still to give, in order. -/
  script : List Value
  /-- The calls made so far, oldest first. -/
  log : List Value
  /-- The kinds the server does not serve. -/
  unserved : Value
  /-- The kinds the server serves more than once. -/
  ambiguous : Value

/-- A client about to give the replies `script`. -/
def Api.start (script : List Value) (unserved ambiguous : Value) : Api :=
  { script := script, log := [], unserved := unserved, ambiguous := ambiguous }

/-- Computations against the client; a failure keeps the calls made before it. -/
abbrev ApiM := ExceptT Failure (StateM Api)

/-- Lifts a computation that may fail. -/
def ApiM.check {α : Type} (e : Except Failure α) : ApiM α :=
  match e with
  | .ok a => pure a
  | .error f => throw f

/-- Records a call in the log. -/
def Api.note (entry : Value) : ApiM Unit :=
  modifyThe Api (fun a => { a with log := a.log ++ [entry] })

/-- Takes the next reply: the first of the script, the empty object once it has run out. -/
def Api.nextReply : ApiM Value := do
  let a ← getThe Api
  match a.script with
  | [] => pure (.obj [("result", .obj [])])
  | r :: rest =>
    set { a with script := rest }
    pure r

/-- A handle on the objects of one kind. Calls through a handle that is not namespaced reach
the objects of every namespace. -/
structure Handle where
  /-- Whether calls are scoped to a namespace. -/
  namespaced : Bool

/-- The handle with the namespace scope dropped when no namespace is given. -/
def Handle.within (h : Handle) (ns : Value) : Handle :=
  if ns.truthy then h else { h with namespaced := false }

/-- The handle of a kind, none when the server does not serve the kind or serves it more than
once. A new handle is namespaced. -/
def Api.resourceHandle (kind apiVersion : Value) : ApiM (Option Handle) := do
  Api.note (.obj [("call", .str "resources.get"), ("kind", kind), ("api_version", apiVersion)])
  let a ← getThe Api
  if ← ApiM.check (kind.memberOf a.unserved) then return none
  if ← ApiM.check (kind.memberOf a.ambiguous) then return none
  return some ⟨true⟩

/-- Makes the call `verb` with the keyword arguments `kwargs` through a handle, and answers
the next reply. -/
def Handle.call (h : Handle) (verb : String) (kwargs : Fields) : ApiM Reply := do
  Api.note (.obj [("call", .str verb), ("namespaced", .bool h.namespaced), ("kwargs", .obj kwargs)])
  return Reply.read (← Api.nextReply)

end OperandLifecycle.Cluster
