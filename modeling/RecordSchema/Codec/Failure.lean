/-
# Decoding failures

Decoding a value stops at the first thing it cannot make sense of.  The failure says what was
found where, and what would have been fine.
-/
import RecordSchema.Error
import RecordSchema.Decimal.Scientific

namespace RecordSchema

/-- What a value looks like to a decoder that did not expect it. -/
inductive Found where
  | null
  | boolean (value : Bool)
  | integer (value : Int)
  | float (value : Binary64)
  | string (text : String)
  | sequence
  | map
deriving DecidableEq

namespace Found

/-- What a decoder sees of a value. -/
def ofJson : Json → Found
  | .null => .null
  | .boolean value => .boolean value
  | .number (.integer value) => .integer value
  | .number (.float value) => .float value
  | .string text => .string text
  | .array _ => .sequence
  | .object _ => .map

/-- The text of what was found. -/
def text : Found → String
  | .null => "null"
  | .boolean value => "boolean `" ++ toString value ++ "`"
  | .integer value => "integer `" ++ toString value ++ "`"
  | .float value => "floating point `" ++ value.text ++ "`"
  | .string text => "string " ++ Text.quoted text
  | .sequence => "sequence"
  | .map => "map"

end Found

/-- What a decoder is ready for. -/
inductive Expected where
  | string
  | boolean
  | sequence
  | map
  /-- A whole number of sixteen bits. -/
  | word
  /-- The `null` that goes with a literal written as a key. -/
  | unit
  /-- A literal in one of its two spellings. -/
  | literal
  /-- The named record, as an object or as an array. -/
  | record (name : String)
deriving DecidableEq

/-- The text of what was expected. -/
def Expected.text : Expected → String
  | .string => "a string"
  | .boolean => "a boolean"
  | .sequence => "a sequence"
  | .map => "a map"
  | .word => "u16"
  | .unit => "unit"
  | .literal => "string or map"
  | .record name => "struct " ++ name

/-- Why a value cannot be decoded. -/
inductive DecodeFailure where
  /-- The value is of a wrong type. -/
  | invalidType (found : Found) (expected : Expected)
  /-- An integer does not fit into sixteen bits. -/
  | outOfRange (value : Int)
  /-- An object that should spell a literal does not have exactly one key. -/
  | notSingleKey
  /-- An object lacks the key of a field that must be there. -/
  | missingField (wire : String)
  /-- An array ends before the field at this position, which must be there. -/
  | tooShort (position : Nat) (record : String) (fields : Nat)
  /-- An array of that length has more items than there are fields. -/
  | tooLong (length : Nat)
  /-- There is no such literal. -/
  | unknownLiteral (text : String) (literals : List String)
deriving DecidableEq

namespace DecodeFailure

/-- A text between backquotes. -/
def backquoted (s : String) : String := "`" ++ s ++ "`"

/-- The literals that would have been fine. -/
def alternatives : List String → String
  | [] => "there are no variants"
  | [only] => "expected " ++ backquoted only
  | [first, second] => "expected " ++ backquoted first ++ " or " ++ backquoted second
  | literals => "expected one of " ++ ", ".intercalate (literals.map backquoted)

/-- A number of elements. -/
def elements (n : Nat) : String := if n = 1 then "1 element" else toString n ++ " elements"

/-- The text of a decoding failure. -/
def message : DecodeFailure → String
  | .invalidType found expected =>
    "invalid type: " ++ found.text ++ ", expected " ++ expected.text
  | .outOfRange value =>
    "invalid value: " ++ (Found.integer value).text ++ ", expected " ++ Expected.word.text
  | .notSingleKey => "invalid value: map, expected map with a single key"
  | .missingField wire => "missing field " ++ backquoted wire
  | .tooShort position record fields =>
    "invalid length " ++ toString position ++ ", expected " ++ (Expected.record record).text
      ++ " with " ++ elements fields
  | .tooLong length => "invalid length " ++ toString length ++ ", expected fewer elements in array"
  | .unknownLiteral text literals =>
    "unknown variant " ++ backquoted text ++ ", " ++ alternatives literals

end DecodeFailure

/-- A decoding failure and where it happened, relative to the value that was decoded. -/
structure DecodeError where
  /-- The place of the value. -/
  path : Path
  /-- What is wrong with it. -/
  failure : DecodeFailure
deriving DecidableEq

namespace DecodeError

/-- A failure at the value itself. -/
def here (failure : DecodeFailure) : DecodeError := ⟨Path.root, failure⟩

/-- The error as it is seen from one step further up. -/
def under (s : Segment) (e : DecodeError) : DecodeError := ⟨s :: e.path, e.failure⟩

/-- The text of a decoding error, which does not say where it happened. -/
def message (e : DecodeError) : String := e.failure.message

/-- A decoding error as a validation error. -/
def toValidationError (e : DecodeError) : ValidationError := ⟨e.path, .undecodable e.message⟩

@[simp] theorem path_under (s : Segment) (e : DecodeError) : (e.under s).path = s :: e.path := rfl

@[simp] theorem failure_under (s : Segment) (e : DecodeError) :
    (e.under s).failure = e.failure := rfl

end DecodeError

end RecordSchema
