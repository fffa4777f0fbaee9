/-
# HTTP exchanges

The request that was sent for a page, and the response that was read.
-/
import RecordSchema.Record
import RecordSchema.Json.Equality
import RecordSchema.Json.Parser

namespace RecordSchema

/-- The method of a request. -/
inductive HttpMethod where
  | get
  | post
deriving DecidableEq

/-- The methods as they are written. -/
def HttpMethod.literals : Codec.Literals HttpMethod where
  values := [.get, .post]
  literal
    | .get => "GET"
    | .post => "POST"

/-- A request. -/
structure HttpRequest where
  /-- The address that was asked. -/
  url : String
  /-- The method. -/
  method : HttpMethod
  /-- The query parameters. -/
  parameters : Option Members
  /-- The headers. -/
  headers : Option Members
  /-- The body. -/
  body : Option Members
deriving DecidableEq

/-- How requests are read and written. -/
def HttpRequest.layout : Layout HttpRequest where
  name := "HttpRequest"
  fields := HttpRequest.mk
    <$> Fields.required "url" "url" Codec.text (·.url)
    <*> Fields.required "method" "http_method" HttpMethod.literals.codec (·.method)
    <*> Fields.optional "parameters" "parameters" Codec.document (·.parameters)
    <*> Fields.optional "headers" "headers" Codec.document (·.headers)
    <*> Fields.optional "body" "body" Codec.document (·.body)

/-- A response. -/
structure HttpResponse where
  /-- The status code. -/
  status : UInt16
  /-- The text of the body. -/
  body : Option String
  /-- The headers. -/
  headers : Option Members
deriving DecidableEq

namespace HttpResponse

/-- How responses are read and written. -/
def layout : Layout HttpResponse where
  name := "HttpResponse"
  fields := HttpResponse.mk
    <$> Fields.required "status" "status" Codec.word (·.status)
    <*> Fields.optional "body" "body" Codec.text (·.body)
    <*> Fields.optional "headers" "headers" Codec.document (·.headers)

/-- The body as a JSON value: the one that it writes, or else the text itself. -/
def parsedBody (r : HttpResponse) : Option Json :=
  r.body.map fun text => (Json.parse? text).getD (.string text)

end HttpResponse

end RecordSchema
