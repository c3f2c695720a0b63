import OperandLifecycle.Json.Path
import OperandLifecycle.Json.Display
import OperandLifecycle.Digest.Sha1
import OperandLifecycle.Text.Case
import OperandLifecycle.Text.Bytes
import OperandLifecycle.Clock
/-!
# Events

The manager reports what it did to an object as an Event attached to it. An event has a type
(normal or warning), a reason and a message. Its name is derived from its owner and content, so
the same event for the same owner always lands on the same object:

* the owner's name, cut so that the whole name fits 253 characters,
* then `.`, the reason in lower case, `.`,
* then the first ten hexadecimal digits of the SHA-1 digest of the UTF-8 text
  `uid/type/reason/message`.

The message of an event is cut to 1024 characters.
-/
namespace OperandLifecycle.Event

open Json

/-- The two kinds of event. -/
inductive EventType where
  | normal
  | warning
  deriving DecidableEq, Repr

/-- The word of an event type. -/
def EventType.word : EventType → String
  | .normal => "Normal"
  | .warning => "Warning"

/-- The event type a value names. -/
def EventType.ofValue (v : Value) : Except Failure EventType :=
  match v with
  | .str "Normal" => .ok .normal
  | .str "Warning" => .ok .warning
  | other => .error (.raised .valueError (other.literal ++ " is not a valid EventType"))

/-- The component that reports events. -/
def source : String := "operand-deployment-lifecycle-manager"

/-- The longest message an event keeps. -/
def maxMessageLength : Nat := 1024

/-- The longest name of an object. -/
def maxNameLength : Nat := 253

/-- The number of digest digits in an event name. -/
def digestLength : Nat := 10

/-- The first `k` characters of a text; a negative `k` drops `-k` characters from its end. -/
def headUpTo (s : String) (k : Int) : String :=
  if k ≥ 0 then s.take k.toNat |>.toString
  else s.take (s.length - k.natAbs) |>.toString

/-- A text that is joined into the digested content, at its position among the parts. -/
def digestPart (pos : Nat) (v : Value) : Except Failure String :=
  match v with
  | .str s => .ok s
  | other => .error (.raised .typeError ("sequence item " ++ toString pos ++
      ": expected str instance, " ++ other.typeName ++ " found"))

/-- The name of an event from its owner and content. -/
def eventName (owner : Value) (type : EventType) (reason message : Value) :
    Except Failure String := do
  let metadata ← owner.fieldOr "metadata" (.obj [])
  let uid ← metadata.field "uid"
  let r ← digestPart 2 reason
  let m ← digestPart 3 message
  let content := "/".intercalate [uid.display, type.word, r, m]
  let digest := (Digest.sha1Hex (Text.utf8Bytes content)).take digestLength |>.toString
  let suffix := "." ++ Text.toLower r ++ "." ++ digest
  let name := (← metadata.field "name").display
  pure (headUpTo name ((maxNameLength : Int) - suffix.length) ++ suffix)

/-- The Event manifest for an owner, stamped `now`. -/
def makeEvent (owner : Value) (type : EventType) (reason message : Value) (now : Stamp) :
    Except Failure Value := do
  let metadata ← owner.fieldOr "metadata" (.obj [])
  let name ← eventName owner type reason message
  let text ← digestPart 3 message
  let field (v : Value) (k : String) : Value := v.getD k
  let stamp := Value.str now.zulu
  pure (.obj [
    ("apiVersion", .str "v1"),
    ("kind", .str "Event"),
    ("metadata", .obj [("name", .str name), ("namespace", field metadata "namespace")]),
    ("involvedObject", .obj [
      ("apiVersion", field owner "apiVersion"), ("kind", field owner "kind"),
      ("name", field metadata "name"), ("namespace", field metadata "namespace"),
      ("uid", field metadata "uid")]),
    ("type", .str type.word),
    ("reason", reason),
    ("message", .str (text.take maxMessageLength).toString),
    ("source", .obj [("component", .str source)]),
    ("reportingComponent", .str source),
    ("firstTimestamp", stamp),
    ("lastTimestamp", stamp),
    ("count", .int 1)])

end OperandLifecycle.Event
