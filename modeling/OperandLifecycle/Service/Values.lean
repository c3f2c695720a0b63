import OperandLifecycle.Service.Status
import OperandLifecycle.Json.Overlay
import OperandLifecycle.Cluster.Selector
/-!
# Value requests

The operations on plain values: overlaying documents, reading dotted paths, flattening
nested objects, and matching selectors against flat maps.

A merge side may come as a value, as JSON text, or as bytes: `{"$bytes": TEXT}` stands for the
UTF-8 bytes of the text and `{"$bytes_hex": HEX}` for raw bytes (`documentArg`).
-/
namespace OperandLifecycle.Service

open Json

/-- A merge side as a request writes it: absent or `null`, a value, JSON text, or bytes. -/
def documentArg (v : Value) : Document :=
  match v with
  | .null => .absent
  | .str s => .text s
  | .obj [("$bytes", .str s)] => .bytes (Text.utf8Bytes s)
  | .obj [("$bytes_hex", .str h)] =>
    match Text.bytesOfHex h.toList with
    | some bs => .bytes bs
    | none => .value v
  | other => .value other

/-- A text argument; anything else cannot be read as text. -/
def textArg (v : Value) (attr : String) : Except Failure String :=
  match v with
  | .str s => .ok s
  | other => .error (notAnObject other attr)

/-- The operations on plain values. -/
def valueHandlers : HandlerTable := [
  ("merge", fun r => do
    pure (.obj (← mergeDocuments (documentArg (r.opt "template")) (documentArg (r.opt "override"))))),
  ("nested_get", fun r => do
    let dct ← r.need "dct"
    let key ← textArg (← r.need "key") "split"
    dct.getPath key (r.opt "dflt")),
  ("to_plain_dict", fun r => r.need "value"),
  ("flatten", fun r => do
    pure (.obj (Cluster.flatten (← objectArg (← r.need "value") "items")))),
  ("split_requirements", fun r => do
    pure (.arr ((← Cluster.selectorRequirements (← r.need "selector")).map .str))),
  ("match_selector", fun r => do
    let values ← r.need "values"
    pure (.bool (← Cluster.selectorHolds values (← r.need "selector"))))]

end OperandLifecycle.Service
