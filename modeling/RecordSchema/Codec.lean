/-
# Codecs

A codec of a type says how its values are written in JSON, how they are read back, and which
kind a table gives to a field of that type.  This module has the codecs of texts, truth
values, sixteen-bit words, opaque objects, lists and literals; records are in
`RecordSchema.Codec.Layout`.
-/
import RecordSchema.Codec.Failure
import RecordSchema.Kind

namespace RecordSchema

/-- How the values of a type are read and written. -/
structure Codec (α : Type) where
  /-- The kind of a field that holds such a value. -/
  kind : Kind String
  /-- Reads a value. -/
  read : Json → Except DecodeError α
  /-- Writes a value. -/
  write : α → Json

namespace Codec

variable {α : Type}

/-- The error of a value of a wrong type. -/
def wrongType (v : Json) (expected : Expected) : DecodeError :=
  .here (.invalidType (.ofJson v) expected)

/-! ## Scalars -/

/-- Reads a string. -/
def readText : Json → Except DecodeError String
  | .string s => .ok s
  | v => .error (wrongType v .string)

/-- Texts are strings. -/
def text : Codec String := ⟨.string, readText, .string⟩

/-- Reads a boolean. -/
def readFlag : Json → Except DecodeError Bool
  | .boolean b => .ok b
  | v => .error (wrongType v .boolean)

/-- Truth values are booleans. -/
def flag : Codec Bool := ⟨.boolean, readFlag, .boolean⟩

/-- Reads an integer from 0 to 65535. -/
def readWord : Json → Except DecodeError UInt16
  | .number (.integer n) =>
    if 0 ≤ n ∧ n < 65536 then .ok (UInt16.ofNat n.toNat) else .error (.here (.outOfRange n))
  | v => .error (wrongType v .word)

/-- Sixteen-bit words are integers. -/
def word : Codec UInt16 := ⟨.integer, readWord, fun w => .number (.integer w.toNat)⟩

/-! ## Containers -/

/-- Reads an object, whatever is in it. -/
def readDocument : Json → Except DecodeError Members
  | .object ms => .ok ms
  | v => .error (wrongType v .map)

/-- Opaque objects are kept as they are. -/
def document : Codec Members := ⟨.object, readDocument, .object⟩

/-- Reads items one after the other; the first of them has the given index. -/
def readItems (read : Json → Except DecodeError α) (index : Nat) :
    List Json → Except DecodeError (List α)
  | [] => .ok []
  | v :: rest =>
    match read v with
    | .error e => .error (e.under (.index index))
    | .ok first => (readItems read (index + 1) rest).map (first :: ·)

/-- Reads an array. -/
def readList (read : Json → Except DecodeError α) : Json → Except DecodeError (List α)
  | .array items => readItems read 0 items
  | v => .error (wrongType v .sequence)

/-- Lists are arrays. -/
def list (item : Codec α) : Codec (List α) :=
  ⟨.array item.kind, readList item.read, fun xs => .array (xs.map item.write)⟩

/-! ## Literals -/

/-- A type whose values are the members of a closed list, each with a literal of its own. -/
structure Literals (α : Type) where
  /-- The values. -/
  values : List α
  /-- The literal of a value. -/
  literal : α → String

namespace Literals

/-- The literals, in order. -/
def all (ls : Literals α) : List String := ls.values.map ls.literal

/-- The value with a literal. -/
def find? (ls : Literals α) (s : String) : Option α := ls.values.find? fun a => ls.literal a == s

/-- The value with a literal that should be there. -/
def lookup (ls : Literals α) (s : String) : Except DecodeError α :=
  match ls.find? s with
  | some a => .ok a
  | none => .error (.here (.unknownLiteral s ls.all))

/-- Reads a literal: a string, or an object with the literal for its only key and `null` for
its value. -/
def read (ls : Literals α) : Json → Except DecodeError α
  | .string s => ls.lookup s
  | .object [(k, v)] => do
    let a ← ls.lookup k
    match v with
    | .null => .ok a
    | v => .error ((wrongType v .unit).under (.key k))
  | .object _ => .error (.here .notSingleKey)
  | v => .error (wrongType v .literal)

/-- Literals are strings. -/
def codec (ls : Literals α) : Codec α := ⟨.oneOf ls.all, ls.read, fun a => .string (ls.literal a)⟩

end Literals

end Codec

end RecordSchema
