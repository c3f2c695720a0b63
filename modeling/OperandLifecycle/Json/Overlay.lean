import OperandLifecycle.Json.Parse
import OperandLifecycle.Failure
import OperandLifecycle.Text.Blank
import OperandLifecycle.Text.Bytes
/-!
# Overlaying one document on another

The manager builds a resource from an operator's example (the template) and the
configuration a user declared for it (the override). `Fields.overlay` merges them: each
member of the override replaces the template's member of that key, except that two objects
under one key are overlaid in turn. Arrays and scalars are replaced whole; keys keep the
template's order, and new keys follow in the override's order.

Each side may come as a decoded value, as JSON text or as JSON bytes (`Document`). An absent
side, `null`, blank text and the document `null` all stand for the empty object; anything
else must be a JSON object, or the merge stops with a `Failure.merge` that names the side.
-/
namespace OperandLifecycle.Json

/-- Overlays the members `o` on the members `base`. -/
def Fields.overlay (base : Fields) (o : Fields) : Fields :=
  match o with
  | [] => base
  | (k, v) :: rest =>
    let merged := match Fields.get? base k, v with
      | some (.obj b), .obj ov => Fields.insert base k (.obj (Fields.overlay b ov))
      | _, _ => Fields.insert base k v
    Fields.overlay merged rest
termination_by sizeOf o

/-- A side of a merge as it is handed over. -/
inductive Document where
  | absent
  | value (v : Value)
  | text (s : String)
  | bytes (bs : List UInt8)

/-- The two sides of a merge. -/
inductive Side where
  | template
  | override
  deriving DecidableEq

/-- The word for a side in failure texts. -/
def Side.label : Side → String
  | .template => "template"
  | .override => "override"

/-- The members of a decoded side: `null` is the empty object, an object its members. -/
def Side.members (side : Side) (v : Value) : Except Failure Fields :=
  match v with
  | .null => .ok []
  | .obj fs => .ok fs
  | other =>
    .error (.merge ("Merge " ++ side.label ++ " must be a JSON object, got " ++ other.typeName))

/-- The failure of a side whose text is no JSON document. -/
def Side.malformed (side : Side) (detail : String) : Failure :=
  .merge ("Malformed JSON in merge " ++ side.label ++ ": " ++ detail)

/-- The members a side stands for. -/
def Document.decode (side : Side) : Document → Except Failure Fields
  | .absent => .ok []
  | .value v => side.members v
  | .text s =>
    if Text.isBlankText s then .ok []
    else match Value.parse s with
      | .error e => .error (side.malformed (e.message s))
      | .ok v => side.members v
  | .bytes bs =>
    if Text.isBlankBytes bs then .ok []
    else match Text.decodeJsonBytes bs with
      | .error f => .error (side.malformed f.message)
      | .ok s =>
        match Value.parseChars s.toList with
        | .error e => .error (side.malformed (e.message s))
        | .ok v => side.members v

/-- Merges an override document into a template document. The template is read first, so a
fault in both is reported for the template. -/
def mergeDocuments (template override : Document) : Except Failure Fields := do
  let base ← template.decode .template
  let patch ← override.decode .override
  pure (Fields.overlay base patch)

end OperandLifecycle.Json
