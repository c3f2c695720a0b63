import OperandLifecycle.Service.Answer
import OperandLifecycle.Service.Values
import OperandLifecycle.Service.Resources
import OperandLifecycle.Service.Library
import OperandLifecycle.Service.Scenario
import OperandLifecycle.Service.Live
import OperandLifecycle.Text.Blank
/-!
# The request service

`answerLine` answers one request line. A request is a JSON object whose `op` names the
operation; its other members are the operation's arguments. Most operations answer a result;
runs of the manager (`runHandlers`) answer with an object of their own. A line that is not such an
object, or names no known operation, is answered with a failure; an operation name that is
not a text names no operation, and one that is a container cannot be looked up at all.
-/
namespace OperandLifecycle.Service

open Json

/-- Every operation of the service, by name. -/
def handlers : HandlerTable := valueHandlers ++ statusHandlers ++ resourceHandlers ++ libraryHandlers

/-- The operations that answer with an object of their own. -/
def runAnswerHandlers : HandlerTable := runHandlers ++ [("openshift", runLive)]

/-- Answers a request object by its operation. -/
def answerRequest (op : String) (req : Fields) : Value :=
  match runAnswerHandlers.lookup op with
  | some h =>
    match h ⟨req⟩ with
    | .ok v => v
    | .error f => answerFailure f
  | none =>
    match handlers.lookup op with
    | some h => answerOf (h ⟨req⟩)
    | none => answerFailure (.raised .valueError ("unknown op " ++ op))

/-- The answer to a line that is no request. -/
def notARequest (kind : Fault) : Value :=
  answerFailure (.raised kind "input must be an object with an op")

/-- Answers one input line; a blank line gets no answer. -/
def answerLine (line : String) : Option String :=
  if Text.isBlankText line then none
  else
    some <| answerText <|
      match Value.parse line with
      | .error _ => notARequest .jsonDecodeError
      | .ok req =>
        match req with
        | .obj fs =>
          match Fields.get? fs "op" with
          | some (.str op) => answerRequest op fs
          | some other =>
            if other.hashable then answerFailure (.raised .valueError ("unknown op " ++ other.display))
            else answerFailure (unhashable other)
          | none => notARequest .valueError
        | _ => notARequest .valueError

end OperandLifecycle.Service
