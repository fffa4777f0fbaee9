/-
# Record types

A record type is a type whose values are read from JSON and written to JSON, together with
the name and the table under which it is declared.  A set constructs a record in two steps,
it validates the payload and then decodes it, and encodes a record in two steps as well, it
lets the record be written and then goes through the table.

What happens is worth a line in the log in two cases: declarations have been resolved, or a
payload has been rejected.
-/
import RecordSchema.Codec.Layout
import RecordSchema.Schemas.Validate
import RecordSchema.Schemas.Encode

namespace RecordSchema

/-- A type of records. -/
structure RecordType (α : Type) where
  /-- The name that other records refer to it by. -/
  name : String
  /-- Its table. -/
  fields : List (Field String)
  /-- Reads a record. -/
  read : Json → Except DecodeError α
  /-- Writes a record, or says why it cannot be written. -/
  write : α → Except String Json

namespace RecordType

variable {α : Type} (R : RecordType α)

/-- The declaration of the record type. -/
def declaration : Declaration := ⟨R.name, R.fields⟩

/-- The line of the table for the name of a field. -/
def field? (name : String) : Option (Field String) := R.fields.find? fun f => f.name == name

/-- The key for the name of a field. -/
def wireName? (name : String) : Option String := (R.field? name).map Field.wire

/-- Reads a record; a failure is an error of the payload. -/
def decode (payload : Json) : Except ValidationError α :=
  (R.read payload).mapError DecodeError.toValidationError

end RecordType

/-- The record type with a layout. -/
def Layout.record {α : Type} (layout : Layout α) : RecordType α where
  name := layout.name
  fields := layout.table
  read := layout.read
  write a := .ok (layout.write a)

namespace Schemas

variable {α : Type} (S : Schemas) (R : RecordType α)

/-- The record that a payload stands for, or the first error of the payload. -/
def construct (payload : Json) : Except Fault (Except ValidationError α) :=
  (S.validate R.name payload).map fun errors =>
    match errors with
    | e :: _ => .error e
    | [] => R.decode payload

/-- The written form of a record. -/
def encode (r : α) (options : EncodeOptions) : Except Fault Members := do
  let i ← S.lookup R.name
  match R.write r with
  | .ok (.object ms) => S.encodeRecord options i ms
  | .ok v => .error (.notObject R.name v.typeName)
  | .error detail => .error (.unwritable R.name detail)

end Schemas

/-! ## The log -/

/-- What is worth a line in the log. -/
inductive Event where
  /-- A set with so many records has been resolved. -/
  | resolved (size : Nat)
  /-- A payload has been rejected. -/
  | rejected (record : String) (error : ValidationError)
deriving DecidableEq

namespace Event

/-- The level of the line. -/
def level : Event → String
  | .resolved _ => "DEBUG"
  | .rejected _ _ => "TRACE"

/-- The text of the line. -/
def text : Event → String
  | .resolved size => "resolved " ++ toString size ++ " record schemas"
  | .rejected record e => "rejected " ++ record ++ " payload: " ++ e.message

/-- What resolving declarations leaves in the log. -/
def ofResolved : Except ResolveError Schemas → List Event
  | .ok S => [.resolved S.size]
  | .error _ => []

/-- What constructing a record leaves in the log. -/
def ofConstructed {α : Type} (record : String) :
    Except Fault (Except ValidationError α) → List Event
  | .ok (.error e) => [.rejected record e]
  | _ => []

end Event

end RecordSchema
