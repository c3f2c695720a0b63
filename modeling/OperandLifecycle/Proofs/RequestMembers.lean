import OperandLifecycle.Status.Members
import OperandLifecycle.Proofs.Members
/-!
# Reading and writing the members of a request status

The members of a request status are read as the list its `members` field holds, and as no
members when that field is missing or null (`Status.members`). Looking a member up and
removing one follow that reading. Setting one does not: it appends to the list the field
holds, or writes a new list where the field is missing, and a null field holds no list to
append to, so `Status.setMember` fails there with the `AttributeError` of appending to `None`.
-/

namespace OperandLifecycle.Status

open Json

section Reading

variable {fs : Fields}

theorem members_of_missing (h : Fields.get? fs "members" = none) : members (.obj fs) = .ok [] := by
  simp only [members, Value.field, h]
  rfl

theorem members_of_null (h : Fields.get? fs "members" = some .null) :
    members (.obj fs) = .ok [] := by
  simp only [members, Value.field, h]
  rfl

theorem members_of_arr {xs : List Value} (h : Fields.get? fs "members" = some (.arr xs)) :
    members (.obj fs) = .ok xs := by
  simp only [members, Value.field, h]
  -- an empty list is false and reads as no members, which is the list again
  cases xs <;> rfl

/-- With no members read, a lookup finds none and a removal changes nothing. -/
theorem getMember_removeMember_of_members_nil (h : members (.obj fs) = .ok []) (name : Value) :
    getMember (.obj fs) name = .ok none ∧ removeMember (.obj fs) name = .ok (false, .obj fs) := by
  constructor
  · simp only [getMember, h]
    rfl
  · simp only [removeMember, h]
    rfl

end Reading

section Setting

variable {fs : Fields} {name : Value} {op : CsvPhase} {operand : ServicePhase}

/-- A member of a new name goes after every member the list holds. -/
theorem setMember_of_arr {xs : List Value} (h : Fields.get? fs "members" = some (.arr xs))
    (hnew : findNamed name xs = .ok none) :
    setMember (.obj fs) name op operand = .ok (true, (Value.obj fs).set "members"
      (.arr (xs ++ [.obj [("name", name), ("phase", memberPhase op operand)]]))) := by
  simp only [setMember, getMember, members_of_arr h, bind, Except.bind, hnew, Value.get?_obj, h]
  rfl

/-- Where the field is missing, the new member is the only one. -/
theorem setMember_of_missing (h : Fields.get? fs "members" = none) :
    setMember (.obj fs) name op operand = .ok (true, (Value.obj fs).set "members"
      (.arr [.obj [("name", name), ("phase", memberPhase op operand)]])) := by
  simp only [setMember, getMember, members_of_missing h, bind, Except.bind, findNamed,
    Value.get?_obj, h]
  rfl

theorem setMember_of_null (h : Fields.get? fs "members" = some .null) :
    setMember (.obj fs) name op operand = .error (notAnObject .null "append") := by
  simp only [setMember, getMember, members_of_null h, bind, Except.bind, findNamed,
    Value.get?_obj, h]
  rfl

end Setting

end OperandLifecycle.Status
