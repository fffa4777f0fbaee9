/-
# Validation

A payload is checked against a record of a set, and all its errors are reported.  At each
object that should be a record the required keys that are missing come first, in the order
of the table; then the values that are present are checked, in the same order.  The items of
an array are checked one after the other.  A value of the wrong JSON type is one error, and
nothing inside it is looked at.

The check follows the payload down, so it ends although records may refer to each other in
circles.  `checkMember_eq` says that checking a member is checking the value of its key.
-/
import RecordSchema.Error
import RecordSchema.Fault

namespace RecordSchema

namespace Schemas

variable (S : Schemas)

/-- The error of a value that should be of some kind but has another JSON type. -/
def mismatch (expected : String) (v : Json) : ValidationError :=
  ⟨Path.root, .invalidType expected v.typeName⟩

/-- The errors of a value whose kind does not look inside it. -/
def checkType (kind : Kind (Fin S.size)) (v : Json) : List ValidationError :=
  if kind.admits v then [] else [mismatch (S.describe kind) v]

/-- The errors of a string that should be one of some literals. -/
def checkLiteral (literals : List String) (s : String) : List ValidationError :=
  if s ∈ literals then [] else [⟨Path.root, .notAllowed s literals⟩]

/-- The errors of the required fields whose key an object does not have. -/
def missingFields (fields : List (Field (Fin S.size))) (ms : Members) : List ValidationError :=
  (fields.filter fun f => f.required && !Members.contains f.wire ms).map fun f =>
    .missing (Path.root.key f.wire)

mutual

/-- All the errors of a value that should be of the given kind. -/
def check (kind : Kind (Fin S.size)) : Json → List ValidationError
  | .object ms =>
    match kind with
    | .record i =>
      S.missingFields (S.table i).fields ms ++
        (S.table i).fields.flatMap fun f =>
          if (f.held? ms).isSome then (checkMember f.wire f.kind ms).map (.under (.key f.wire))
          else []
    | _ => S.checkType kind (.object ms)
  | .array items =>
    match kind with
    | .array item => checkItems item 0 items
    | _ => S.checkType kind (.array items)
  | .string s =>
    match kind with
    | .oneOf literals => checkLiteral literals s
    | _ => S.checkType kind (.string s)
  | v => S.checkType kind v

/-- The errors of the items of an array, the first of which has the given index. -/
def checkItems (kind : Kind (Fin S.size)) (index : Nat) : List Json → List ValidationError
  | [] => []
  | v :: rest => (check kind v).map (.under (.index index)) ++ checkItems kind (index + 1) rest

/-- The errors of the member with the given key. -/
def checkMember (key : String) (kind : Kind (Fin S.size)) :
    List (String × Json) → List ValidationError
  | [] => []
  | (k, v) :: rest => if k = key then check kind v else checkMember key kind rest

end

/-- The errors of a value that should be the record at a position. -/
def checkRecord (i : Fin S.size) (v : Json) : List ValidationError :=
  match v with
  | .object _ => S.check (.record i) v
  | _ => [mismatch "object" v]

/-- All the errors of a payload that should be the record with a name. -/
def validate (name : String) (payload : Json) : Except Fault (List ValidationError) :=
  (S.lookup name).map fun i => S.checkRecord i payload

theorem checkMember_eq (key : String) (kind : Kind (Fin S.size)) (ms : Members) :
    S.checkMember key kind ms =
      match Members.get? key ms with
      | some v => S.check kind v
      | none => [] :=
  Members.eq_match_get? (by rw [checkMember]) (fun _ _ _ => by rw [checkMember]) ms

end Schemas

end RecordSchema
