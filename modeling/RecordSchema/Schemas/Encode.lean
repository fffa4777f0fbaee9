/-
# Encoding

The members of a record are written through its table: field by field, each value under its
key, records inside of it likewise.  A field that is not required and has no value, or holds
`null`, is left out or written as `null`, as the options say.  Keys that the table does not
list are a fault of the record, which is reported once all its fields have been written, so
that a fault inside of one of its values comes first.

Each field takes its key out of the members.  A second field with the same key therefore
finds no value, and what is left over in the end are the keys that no field has asked for.
`encodeMember_eq` says that encoding a member is encoding the value of its key.
-/
import RecordSchema.Fault

namespace RecordSchema

/-- How a field without a value is written. -/
inductive AbsentFields where
  /-- Its key is left out. -/
  | omit
  /-- Its key is written with the value `null`. -/
  | null
deriving DecidableEq

/-- Options for turning a record into JSON. -/
structure EncodeOptions where
  /-- What is done about fields that have no value. -/
  absent : AbsentFields
deriving DecidableEq

namespace EncodeOptions

/-- Fields without a value are left out, unless asked otherwise. -/
def standard : EncodeOptions := ⟨.omit⟩

/-- The options that write `null` for every field without a value. -/
def explicitNulls : EncodeOptions := ⟨.null⟩

end EncodeOptions

/-- Members to be written, and those written so far. -/
structure Draft where
  /-- The members that no field has taken yet. -/
  left : Members
  /-- The members of the result. -/
  written : Members

namespace Draft

variable {ρ : Type}

/-- Takes the key of a field that has no value. -/
def skip (options : EncodeOptions) (field : Field ρ) (d : Draft) : Draft where
  left := Members.erase field.wire d.left
  written :=
    if field.required then d.written
    else match options.absent with
      | .omit => d.written
      | .null => Members.insert field.wire .null d.written

/-- Takes the key of a field and writes its value. -/
def put (field : Field ρ) (value : Json) (d : Draft) : Draft where
  left := Members.erase field.wire d.left
  written := Members.insert field.wire value d.written

/-- Writes a field; `encode` gives the written form of its value and is asked for it only if
the value has not been taken yet. -/
def write (options : EncodeOptions) (encode : Field ρ → Except Fault Json) (field : Field ρ)
    (d : Draft) : Except Fault Draft :=
  match field.held? d.left with
  | some _ => (encode field).map fun value => d.put field value
  | none => .ok (d.skip options field)

/-- The members of a record that has been written, unless some of its keys are left over. -/
def finish (record : String) (d : Draft) : Except Fault Members :=
  if d.left.isEmpty then .ok d.written else .error (.strayKeys record (Members.keys d.left))

end Draft

/-- Writes the members of a record field by field; `encode` gives the written form of the value
of a field. -/
def Table.writeMembers {ρ : Type} (table : Table ρ) (options : EncodeOptions)
    (encode : Field ρ → Except Fault Json) (ms : Members) : Except Fault Members := do
  let d ← table.fields.foldlM (fun d f => d.write options encode f) (Draft.mk ms [])
  d.finish table.name

namespace Schemas

variable (S : Schemas) (options : EncodeOptions)

mutual

/-- The written form of a value of the given kind.  Only records are written through a table;
any other value is written as it is, even if it is not of its kind. -/
def encodeValue (kind : Kind (Fin S.size)) : Json → Except Fault Json
  | .object ms =>
    match kind with
    | .record i =>
      ((S.table i).writeMembers options (fun f => encodeMember f.wire f.kind ms) ms).map .object
    | _ => .ok (.object ms)
  | .array items =>
    match kind with
    | .array item => (encodeItems item items).map .array
    | _ => .ok (.array items)
  | v => .ok v

/-- The written forms of the items of an array. -/
def encodeItems (kind : Kind (Fin S.size)) : List Json → Except Fault (List Json)
  | [] => .ok []
  | v :: rest => do
    let first ← encodeValue kind v
    let others ← encodeItems kind rest
    .ok (first :: others)

/-- The written form of the value of the member with the given key, `null` if there is none. -/
def encodeMember (key : String) (kind : Kind (Fin S.size)) :
    List (String × Json) → Except Fault Json
  | [] => .ok .null
  | (k, v) :: rest => if k = key then encodeValue kind v else encodeMember key kind rest

end

/-- The written form of the members of the record at a position. -/
def encodeRecord (i : Fin S.size) (ms : Members) : Except Fault Members :=
  (S.table i).writeMembers options (fun f => S.encodeMember options f.wire f.kind ms) ms

theorem encodeValue_record (i : Fin S.size) (ms : Members) :
    S.encodeValue options (.record i) (.object ms) = (S.encodeRecord options i ms).map .object := by
  rw [encodeValue, encodeRecord]

theorem encodeMember_eq (key : String) (kind : Kind (Fin S.size)) (ms : Members) :
    S.encodeMember options key kind ms =
      match Members.get? key ms with
      | some v => S.encodeValue options kind v
      | none => .ok .null :=
  Members.eq_match_get? (by rw [encodeMember]) (fun _ _ _ => by rw [encodeMember]) ms

end Schemas

end RecordSchema
