import OperandLifecycle.Json.Value
/-!
# Merge patches

A merge patch describes a change to a JSON document by example (RFC 7386): an object patch
changes an object member by member, where a `null` member removes the member, an object
member patches the member in turn, and any other member replaces it; a patch that is no
object replaces the whole document. A patched object keeps the order of its members, new
members following in the patch's order.
-/
namespace OperandLifecycle.Json

mutual
/-- A document with a merge patch applied. -/
def Value.mergePatch (target : Value) : Value → Value
  | .obj ps => .obj (patchMembers (target.fields?.getD []) ps)
  | other => other

/-- Members with the members of an object patch applied, in order. -/
def patchMembers (base : Fields) : List (String × Value) → Fields
  | [] => base
  | (k, v) :: rest =>
    let base := match v with
      | .null => Fields.erase base k
      | _ => Fields.insert base k (((Fields.get? base k).getD .null).mergePatch v)
    patchMembers base rest
end

end OperandLifecycle.Json
