/-
# The records of a test read

The seven record types that a test read is made of, and the set that their declarations
resolve to.
-/
import RecordSchema.TestRead.Stream

namespace RecordSchema

/-- The record types of a test read, in the order of their declaration. -/
inductive Model where
  | streamRead
  | logMessage
  | sliceRecord
  | pageRecord
  | httpRequest
  | httpResponse
  | sliceDescriptor
deriving DecidableEq

namespace Model

/-- The type of the records. -/
@[reducible] def Carrier : Model → Type
  | streamRead => StreamRead
  | logMessage => LogMessage
  | sliceRecord => SliceRecord
  | pageRecord => PageRecord
  | httpRequest => HttpRequest
  | httpResponse => HttpResponse
  | sliceDescriptor => SliceDescriptor

instance : (m : Model) → DecidableEq m.Carrier
  | streamRead => inferInstanceAs (DecidableEq StreamRead)
  | logMessage => inferInstanceAs (DecidableEq LogMessage)
  | sliceRecord => inferInstanceAs (DecidableEq SliceRecord)
  | pageRecord => inferInstanceAs (DecidableEq PageRecord)
  | httpRequest => inferInstanceAs (DecidableEq HttpRequest)
  | httpResponse => inferInstanceAs (DecidableEq HttpResponse)
  | sliceDescriptor => inferInstanceAs (DecidableEq SliceDescriptor)

/-- How the records are read and written. -/
def layout : (m : Model) → Layout m.Carrier
  | streamRead => StreamRead.layout
  | logMessage => LogMessage.layout
  | sliceRecord => SliceRecord.layout
  | pageRecord => PageRecord.layout
  | httpRequest => HttpRequest.layout
  | httpResponse => HttpResponse.layout
  | sliceDescriptor => SliceDescriptor.layout

/-- The record type. -/
def record (m : Model) : RecordType m.Carrier := m.layout.record

/-- The name of the record type. -/
def name (m : Model) : String := m.layout.name

/-- All record types. -/
def all : List Model :=
  [streamRead, logMessage, sliceRecord, pageRecord, httpRequest, httpResponse, sliceDescriptor]

/-- The record type with a name. -/
def find? (name : String) : Option Model := all.find? fun m => m.name == name

/-- The declarations of all record types. -/
def declarations : List Declaration := all.map fun m => m.layout.declaration

/-- The declarations resolve. -/
theorem isOk_resolve_declarations : (resolve declarations).isOk = true := by decide

/-- The set of all record types. -/
def schemas : Schemas :=
  match resolved : resolve declarations with
  | .ok S => S
  | .error e => absurd isOk_resolve_declarations (by simp [resolved, Except.isOk, Except.toBool])

theorem resolve_declarations : resolve declarations = .ok schemas := by
  rw [schemas]
  split
  · assumption
  · rename_i e failed
    exact absurd isOk_resolve_declarations (by simp [failed, Except.isOk, Except.toBool])

end Model

end RecordSchema
