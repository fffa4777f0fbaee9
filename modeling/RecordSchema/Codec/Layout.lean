/-
# Layouts

The layout of a record lists its fields: the name of each, its key, the codec of its value
and how to get the value from the record.  Table, reader and writer of the record all follow
from this one list, so they agree on the keys.

A record is read from an object or from an array.  An object may have further keys, which are
ignored.  Its members are read in the order of their keys, so of several unreadable ones the
first in that order is reported; only if all are readable is a missing field reported, in the
order of the layout.  An array holds the values of the fields in the order of the layout, and
may leave out fields at its end that need not be there.
-/
import RecordSchema.Codec

namespace RecordSchema

/-- Why the members of an object do not make a record. -/
inductive Shortfall where
  /-- The value of a key cannot be read. -/
  | unreadable (key : String) (error : DecodeError)
  /-- A key that must be there is not. -/
  | lacking (key : String)
deriving DecidableEq

namespace Shortfall

/-- Of the shortfalls of two groups of fields, the second of which follows the first in the
layout, the one that is reported. -/
def first : Shortfall → Shortfall → Shortfall
  | .unreadable k e, .unreadable l f => if l < k then .unreadable l f else .unreadable k e
  | .lacking _, .unreadable l f => .unreadable l f
  | a, _ => a

/-- The error of the object. -/
def toError : Shortfall → DecodeError
  | .unreadable key e => e.under (.key key)
  | .lacking key => .here (.missingField key)

end Shortfall

/-- A group of fields of a record `ρ` that together give a value of type `α`. -/
structure Fields (ρ α : Type) where
  /-- The lines of the table. -/
  table : List (Field String)
  /-- Reads the fields from the members of an object. -/
  ofMembers : Members → Except Shortfall α
  /-- Reads the fields from the items of an array, where the first of them has the given
  position; `short` gives the error of an array that ends before a position. -/
  ofItems : (short : Nat → DecodeError) → Nat → List Json → Except DecodeError α
  /-- Writes the fields of a record, without those that have no value. -/
  write : ρ → List (String × Json)

namespace Fields

variable {ρ α β : Type}

/-! ## Single fields -/

/-- A field that must be there. -/
def required (name wire : String) (c : Codec α) (get : ρ → α) : Fields ρ α where
  table := [⟨name, wire, c.kind, true⟩]
  ofMembers ms :=
    match Members.get? wire ms with
    | none => .error (.lacking wire)
    | some v => (c.read v).mapError (.unreadable wire)
  ofItems short position items :=
    match items[position]? with
    | none => .error (short position)
    | some v => (c.read v).mapError (.under (.index position))
  write r := [(wire, c.write (get r))]

/-- A field that has a value of its own when it is not there. -/
def defaulted (name wire : String) (c : Codec α) (default : α) (get : ρ → α) : Fields ρ α where
  table := [⟨name, wire, c.kind, false⟩]
  ofMembers ms :=
    match Members.get? wire ms with
    | none => .ok default
    | some v => (c.read v).mapError (.unreadable wire)
  ofItems _ position items :=
    match items[position]? with
    | none => .ok default
    | some v => (c.read v).mapError (.under (.index position))
  write r := [(wire, c.write (get r))]

/-- Reads a value for which `null` is the same as no value. -/
def readNullable (read : Json → Except DecodeError α) : Json → Except DecodeError (Option α)
  | .null => .ok none
  | v => (read v).map some

/-- A field that may have no value: its key is then left out when it is written, and may be
left out or hold `null` when it is read. -/
def optional (name wire : String) (c : Codec α) (get : ρ → Option α) : Fields ρ (Option α) where
  table := [⟨name, wire, c.kind, false⟩]
  ofMembers ms :=
    match Members.get? wire ms with
    | none => .ok none
    | some v => (readNullable c.read v).mapError (.unreadable wire)
  ofItems _ position items :=
    match items[position]? with
    | none => .ok none
    | some v => (readNullable c.read v).mapError (.under (.index position))
  write r := match get r with
    | none => []
    | some a => [(wire, c.write a)]

/-! ## Groups of fields -/

/-- Puts two readings of members together.  If both fall short, one shortfall is reported. -/
def both : Except Shortfall (α → β) → Except Shortfall α → Except Shortfall β
  | .ok f, .ok a => .ok (f a)
  | .ok _, .error e => .error e
  | .error e, .ok _ => .error e
  | .error e, .error e' => .error (e.first e')

/-- The same fields with a function applied to what they give. -/
def map (f : α → β) (x : Fields ρ α) : Fields ρ β where
  table := x.table
  ofMembers ms := (x.ofMembers ms).map f
  ofItems short position items := (x.ofItems short position items).map f
  write := x.write

/-- The fields of `x` followed by those of `y`. -/
def append (x : Fields ρ (α → β)) (y : Fields ρ α) : Fields ρ β where
  table := x.table ++ y.table
  ofMembers ms := both (x.ofMembers ms) (y.ofMembers ms)
  ofItems short position items := do
    let f ← x.ofItems short position items
    let a ← y.ofItems short (position + x.table.length) items
    .ok (f a)
  write r := x.write r ++ y.write r

instance : Functor (Fields ρ) where
  map := map

instance : Seq (Fields ρ) where
  seq x y := append x (y ())

end Fields

/-- The layout of a record. -/
structure Layout (α : Type) where
  /-- The name of the record. -/
  name : String
  /-- Its fields. -/
  fields : Fields α α

namespace Layout

variable {α : Type} (layout : Layout α)

/-- The table of the record. -/
def table : List (Field String) := layout.fields.table

/-- The error of an array that ends before the field at a position. -/
def short (position : Nat) : DecodeError :=
  .here (.tooShort position layout.name layout.table.length)

/-- Reads a record. -/
def read : Json → Except DecodeError α
  | .object ms => (layout.fields.ofMembers ms).mapError Shortfall.toError
  | .array items => do
    let a ← layout.fields.ofItems layout.short 0 items
    if items.length ≤ layout.table.length then .ok a
    else .error (.here (.tooLong items.length))
  | v => .error (Codec.wrongType v (.record layout.name))

/-- Writes a record as an object. -/
def write (a : α) : Json := .object (Members.ofList (layout.fields.write a))

/-- Records as values of fields. -/
def codec : Codec α := ⟨.record layout.name, layout.read, layout.write⟩

/-- The declaration of the record. -/
def declaration : Declaration := ⟨layout.name, layout.table⟩

end Layout

end RecordSchema
