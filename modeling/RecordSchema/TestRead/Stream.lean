/-
# Stream reads

The outcome of a test read of one stream: the messages that were logged meanwhile, the slices,
whether the read was cut short, and the schema that the records suggest.
-/
import RecordSchema.TestRead.Slice

namespace RecordSchema

/-- How serious a logged message is. -/
inductive LogLevel where
  | error
  | warn
  | info
  | debug
  | trace
deriving DecidableEq

/-- The levels as they are written. -/
def LogLevel.literals : Codec.Literals LogLevel where
  values := [.error, .warn, .info, .debug, .trace]
  literal
    | .error => "ERROR"
    | .warn => "WARN"
    | .info => "INFO"
    | .debug => "DEBUG"
    | .trace => "TRACE"

/-- A message that the connector logged. -/
structure LogMessage where
  /-- The text of the message. -/
  message : String
  /-- How serious it is. -/
  level : LogLevel
deriving DecidableEq

/-- How logged messages are read and written. -/
def LogMessage.layout : Layout LogMessage where
  name := "LogMessage"
  fields := LogMessage.mk
    <$> Fields.required "message" "message" Codec.text (·.message)
    <*> Fields.required "level" "level" LogLevel.literals.codec (·.level)

/-- A test read of one stream. -/
structure StreamRead where
  /-- The messages that were logged. -/
  logs : List LogMessage
  /-- The slices. -/
  slices : List SliceRecord
  /-- Whether the read stopped at a limit. -/
  limitReached : Bool
  /-- The schema inferred from the records. -/
  inferredSchema : Option Members
deriving DecidableEq

namespace StreamRead

/-- How stream reads are read and written. -/
def layout : Layout StreamRead where
  name := "StreamRead"
  fields := StreamRead.mk
    <$> Fields.required "logs" "logs" (Codec.list LogMessage.layout.codec) (·.logs)
    <*> Fields.required "slices" "slices" (Codec.list SliceRecord.layout.codec) (·.slices)
    <*> Fields.required "limit_reached" "test_read_limit_reached" Codec.flag (·.limitReached)
    <*> Fields.optional "inferred_schema" "inferred_schema" Codec.document (·.inferredSchema)

/-- The pages of all slices, in the order they were read. -/
def pages (r : StreamRead) : List PageRecord := r.slices.flatMap SliceRecord.pages

/-- How many records were read. -/
def recordCount (r : StreamRead) : Nat := (r.pages.map fun p => p.records.length).foldr (· + ·) 0

end StreamRead

end RecordSchema
