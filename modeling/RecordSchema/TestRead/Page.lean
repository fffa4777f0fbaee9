/-
# Pages

A page holds the records that were taken from one HTTP exchange.
-/
import RecordSchema.TestRead.Exchange

namespace RecordSchema

/-- A page of a slice. -/
structure PageRecord where
  /-- The records on the page. -/
  records : List Members
  /-- The request that the page answers. -/
  request : Option HttpRequest
  /-- The response that the page was read from. -/
  response : Option HttpResponse
deriving DecidableEq

/-- How pages are read and written. -/
def PageRecord.layout : Layout PageRecord where
  name := "PageRecord"
  fields := PageRecord.mk
    <$> Fields.required "records" "records" (Codec.list Codec.document) (·.records)
    <*> Fields.optional "request" "request" HttpRequest.layout.codec (·.request)
    <*> Fields.optional "response" "response" HttpResponse.layout.codec (·.response)

end RecordSchema
