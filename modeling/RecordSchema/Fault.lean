/-
# Faults

A validation error is the fault of a payload.  The faults listed here are those of the
program that uses a set of records: it asks for a record that the set does not have, or for
a set that is not there, or hands over a record that does not fit its own table.
-/
import RecordSchema.Schemas.Resolve
import RecordSchema.Text.Complaint

namespace RecordSchema

/-- A misuse of a set of records. -/
inductive Fault where
  /-- No set of records has been installed. -/
  | unresolved
  /-- The set has no record of that name. -/
  | unknownRecord (record : String)
  /-- A record was written as something else than an object. -/
  | notObject (record : String) (found : String)
  /-- A record could not be written at all. -/
  | unwritable (record : String) (detail : String)
  /-- A record was written with keys that its table does not list. -/
  | strayKeys (record : String) (keys : List String)
  /-- The declarations of a set to install do not resolve. -/
  | unresolvable (cause : ResolveError)
deriving DecidableEq

/-- The text of a fault. -/
def Fault.message : Fault → String
  | .unresolved =>
    "record schemas are not resolved; call `model::resolve()` before constructing records"
  | .unknownRecord record => "record `" ++ record ++ "` is not part of this schema set"
  | .notObject record found => "record `" ++ record ++ "` serialized to " ++ found
  | .unwritable record detail =>
    "record `" ++ record ++ "` failed to serialize: " ++ (Complaint.ofText detail).message
  | .strayKeys record keys =>
    "record `" ++ record ++ "` serialized keys missing from its alias table: "
      ++ Text.quotedList keys
  | .unresolvable cause => cause.message

namespace Schemas

/-- The position of the record with a name that the set should have. -/
def lookup (S : Schemas) (name : String) : Except Fault (Fin S.size) :=
  match S.find? name with
  | some i => .ok i
  | none => .error (.unknownRecord name)

end Schemas

end RecordSchema
