/-
# Validation errors

A payload is rejected with an error that says which of its values is wrong, and why.
-/
import RecordSchema.Path
import RecordSchema.Text.Quoted

namespace RecordSchema

/-- Why a value is rejected. -/
inductive Reason where
  /-- The key of a required field is not there. -/
  | missing
  /-- The value does not have the JSON type that its kind asks for. -/
  | invalidType (expected : String) (found : String)
  /-- The value is a string, but none of the literals. -/
  | notAllowed (value : String) (allowed : List String)
  /-- The value conforms to the table but cannot be decoded, for the reason given. -/
  | undecodable (detail : String)
deriving DecidableEq

/-- The text of a reason. -/
def Reason.message : Reason → String
  | .missing => "required field is missing"
  | .invalidType expected found => "expected " ++ expected ++ ", found " ++ found
  | .notAllowed value allowed => "`" ++ value ++ "` is not one of " ++ Text.quotedList allowed
  | .undecodable detail => detail

/-- The rejection of one value of a payload. -/
structure ValidationError where
  /-- The place of the value, relative to the value that was validated. -/
  path : Path
  /-- What is wrong with it. -/
  reason : Reason
deriving DecidableEq

namespace ValidationError

/-- The error of a required key that is missing at a path. -/
def missing (path : Path) : ValidationError := ⟨path, .missing⟩

/-- The error as it is seen from one step further up. -/
def under (s : Segment) (e : ValidationError) : ValidationError := ⟨s :: e.path, e.reason⟩

/-- The text of a validation error. -/
def message (e : ValidationError) : String :=
  "Invalid field `" ++ e.path.text ++ "`: " ++ e.reason.message

@[simp] theorem path_under (s : Segment) (e : ValidationError) :
    (e.under s).path = s :: e.path := rfl

@[simp] theorem reason_under (s : Segment) (e : ValidationError) :
    (e.under s).reason = e.reason := rfl

end ValidationError

end RecordSchema
