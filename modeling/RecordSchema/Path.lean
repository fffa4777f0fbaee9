/-
# Paths into a payload

A path is the list of steps that leads from a payload to one of its values.  Errors carry
the path of the value they complain about, relative to the value that was looked at; going
up, `Path.under` puts the step in front that led there.
-/
import RecordSchema.Json.Members

namespace RecordSchema

/-- One step of a path. -/
inductive Segment where
  /-- To the member of an object with that key. -/
  | key (name : String)
  /-- To the item of an array at that position. -/
  | index (position : Nat)
deriving DecidableEq

/-- The text of a segment that has others before it: a key after a dot, an index in brackets. -/
def Segment.text : Segment → String
  | .key name => "." ++ name
  | .index position => "[" ++ toString position ++ "]"

/-- The place of a value inside a payload, such as `pages[2].records[0]`. -/
abbrev Path := List Segment

namespace Path

/-- The empty path, which leads to the payload itself. -/
def root : Path := []

/-- The path extended by an object key. -/
def key (p : Path) (name : String) : Path := p ++ [.key name]

/-- The path extended by an array index. -/
def index (p : Path) (position : Nat) : Path := p ++ [.index position]

/-- The path extended by one segment. -/
def push (p : Path) : Segment → Path
  | .key name => p.key name
  | .index position => p.index position

/-- Whether the path leads to the payload itself. -/
def isRoot (p : Path) : Bool := p.isEmpty

/-- The text of a path.  A first key stands without a dot, and the empty path is `<root>`. -/
def text : Path → String
  | [] => "<root>"
  | .key name :: rest => name ++ String.join (rest.map Segment.text)
  | path => String.join (path.map Segment.text)

theorem push_eq_append (p : Path) (s : Segment) : p.push s = p ++ [s] := by
  cases s <;> rfl

end Path

namespace Json

/-- The value a path leads to, if it is there. -/
def at? : Path → Json → Option Json
  | [], v => some v
  | .key name :: rest, .object ms => (Members.get? name ms).bind (at? rest)
  | .index position :: rest, .array items => items[position]?.bind (at? rest)
  | _, _ => none

end Json

end RecordSchema
