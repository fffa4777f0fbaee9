/-
# Options as a document

Encoding options are read from a document such as an object with the one key `absent`.
-/
import RecordSchema.Codec.Layout
import RecordSchema.Schemas.Encode

namespace RecordSchema

namespace AbsentFields

/-- The two policies by name. -/
def literals : Codec.Literals AbsentFields where
  values := [.omit, .null]
  literal
    | .omit => "omit"
    | .null => "null"

end AbsentFields

/-- Options are an object; the standard policy holds if none is given. -/
def EncodeOptions.layout : Layout EncodeOptions where
  name := "EncodeOptions"
  fields := EncodeOptions.mk
    <$> Fields.defaulted "absent" "absent" AbsentFields.literals.codec .omit (·.absent)

end RecordSchema
