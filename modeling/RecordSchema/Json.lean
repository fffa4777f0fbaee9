/-
# JSON values

The values that are validated, decoded and encoded.  Numbers come in two sorts, exact
integers and binary floating-point numbers, because the schema kinds tell them apart: a
number written with a fraction or an exponent is never an integer, whatever its value.

An object is the list of its members.  Reading a document and inserting into an object
both keep the members in ascending order of their keys; `RecordSchema.Json.Members` says
so, and holds the operations on members.
-/

namespace RecordSchema

/-- A binary floating-point number of double precision, given by its sixty-four bits. -/
structure Binary64 where
  /-- The sign, the exponent and the fraction, from the highest bit down. -/
  bits : UInt64
deriving DecidableEq

/-- A JSON number. -/
inductive Number where
  /-- A number written as an integer, and small enough to be held as one. -/
  | integer (value : Int)
  /-- Any other number. -/
  | float (value : Binary64)
deriving DecidableEq

/-- Whether a number is an integer by the way it was written. -/
def Number.isInteger : Number → Bool
  | .integer _ => true
  | .float _ => false

/-- A JSON value. -/
inductive Json where
  | null
  | boolean (value : Bool)
  | number (value : Number)
  | string (text : String)
  | array (items : List Json)
  | object (members : List (String × Json))

/-- The members of a JSON object, in the order of its keys. -/
abbrev Members := List (String × Json)

namespace Json

/-- The name of the JSON type of a value, as it appears in messages. -/
def typeName : Json → String
  | .null => "null"
  | .boolean _ => "boolean"
  | .number _ => "number"
  | .string _ => "string"
  | .array _ => "array"
  | .object _ => "object"

end Json

end RecordSchema
