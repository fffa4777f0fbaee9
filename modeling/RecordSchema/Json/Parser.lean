/-
# Reading JSON text

The tokens of a text are taken one after the other by a machine that keeps the containers it
is inside of.  Its stage says what has been read and so which tokens may follow; the text is
a JSON value when its last token leads to the stage `finished`.

Containers may be nested 127 deep.  Of several members of an object with one key the last
one counts.
-/
import RecordSchema.Json.Token
import RecordSchema.Json.Members

namespace RecordSchema

namespace Parser

/-- Where a value belongs once it has been read. -/
inductive Frame where
  /-- Behind these items of an array, the last one first. -/
  | item (done : List Json)
  /-- Under that key into an object with these members. -/
  | member (done : Members) (key : String)

/-- What has been read, and what may follow. -/
inductive Stage where
  /-- A value must follow, which goes into the innermost frame. -/
  | value (outer : List Frame)
  /-- An array has been opened. -/
  | arrayStart (outer : List Frame)
  /-- An object has been opened. -/
  | objectStart (outer : List Frame)
  /-- A comma in an object has been read. -/
  | key (done : Members) (outer : List Frame)
  /-- A key has been read. -/
  | colon (done : Members) (key : String) (outer : List Frame)
  /-- An item has been read. -/
  | afterItem (done : List Json) (outer : List Frame)
  /-- A member has been read. -/
  | afterMember (done : Members) (outer : List Frame)
  /-- The whole value has been read. -/
  | finished (value : Json)

/-- How deep containers may be nested. -/
def maxDepth : Nat := 127

/-- The stage after a complete value. -/
def place (value : Json) : List Frame → Stage
  | [] => .finished value
  | .item done :: outer => .afterItem (value :: done) outer
  | .member done key :: outer => .afterMember (Members.insert key value done) outer

/-- The stage after the first token of a value. -/
def startValue? (outer : List Frame) : Token → Option Stage
  | .scalar value => some (place value outer)
  | .openArray => if outer.length < maxDepth then some (.arrayStart outer) else none
  | .openObject => if outer.length < maxDepth then some (.objectStart outer) else none
  | _ => none

/-- The stage after one more token. -/
def step? : Stage → Token → Option Stage
  | .value outer, t => startValue? outer t
  | .arrayStart outer, .closeArray => some (place (.array []) outer)
  | .arrayStart outer, t => startValue? (.item [] :: outer) t
  | .objectStart outer, .closeObject => some (place (.object []) outer)
  | .objectStart outer, .scalar (.string k) => some (.colon [] k outer)
  | .key done outer, .scalar (.string k) => some (.colon done k outer)
  | .colon done k outer, .colon => some (.value (.member done k :: outer))
  | .afterItem done outer, .comma => some (.value (.item done :: outer))
  | .afterItem done outer, .closeArray => some (place (.array done.reverse) outer)
  | .afterMember done outer, .comma => some (.key done outer)
  | .afterMember done outer, .closeObject => some (place (.object done) outer)
  | _, _ => none

end Parser

/-- The value that a JSON text writes. -/
def Json.parse? (text : String) : Option Json := do
  let tokens ← Token.scan? text
  match ← tokens.foldlM Parser.step? (.value []) with
  | .finished value => some value
  | _ => none

end RecordSchema
