/-
# Kinds, fields and tables

A record is described by its table: one field per line, with the name that the program knows
it by, the key that stands for it in JSON, the kind of its value and whether the key must be
present.  The kind of a field may refer to another record.

All three are parametrised by what a reference is.  In a declaration it is the name of a
record, and in a resolved set the position of one.
-/
import RecordSchema.Json.Members
import RecordSchema.Text.Quoted

namespace RecordSchema

/-- The declared shape of a value. -/
inductive Kind (ρ : Type) where
  /-- A string. -/
  | string
  /-- A number written as an integer. -/
  | integer
  /-- A boolean. -/
  | boolean
  /-- An object with any members. -/
  | object
  /-- Any value. -/
  | any
  /-- A string out of a closed list of literals. -/
  | oneOf (literals : List String)
  /-- An array whose items all have one kind. -/
  | array (item : Kind ρ)
  /-- An object that is a record. -/
  | record (target : ρ)
deriving DecidableEq

namespace Kind

variable {ρ σ : Type}

/-- The same kind with each reference replaced. -/
def map (f : ρ → σ) : Kind ρ → Kind σ
  | .string => .string
  | .integer => .integer
  | .boolean => .boolean
  | .object => .object
  | .any => .any
  | .oneOf literals => .oneOf literals
  | .array item => .array (item.map f)
  | .record target => .record (f target)

/-- The record that a kind refers to, directly or as the item of an array. -/
def target? : Kind ρ → Option ρ
  | .array item => item.target?
  | .record target => some target
  | _ => none

/-- A kind in words, where `name` gives the name of a record. -/
def describe (name : ρ → String) : Kind ρ → String
  | .string => "string"
  | .integer => "integer"
  | .boolean => "boolean"
  | .object => "object"
  | .any => "any value"
  | .oneOf literals => "one of " ++ Text.quotedList literals
  | .array item => "array of " ++ item.describe name
  | .record target => name target ++ " object"

/-- Whether a value has the JSON type that a kind asks for.  A number with a fraction or an
exponent is not an integer, whatever its value. -/
def admits : Kind ρ → Json → Bool
  | .any, _ => true
  | .string, .string _ => true
  | .integer, .number n => n.isInteger
  | .boolean, .boolean _ => true
  | .object, .object _ => true
  | .oneOf _, .string _ => true
  | .array _, .array _ => true
  | .record _, .object _ => true
  | _, _ => false

@[simp] theorem describe_map (f : ρ → σ) (name : σ → String) (k : Kind ρ) :
    (k.map f).describe name = k.describe fun r => name (f r) := by
  induction k with
  | array item ih => simp [map, describe, ih]
  | _ => rfl

@[simp] theorem target?_map (f : ρ → σ) (k : Kind ρ) :
    (k.map f).target? = k.target?.map f := by
  induction k with
  | array item ih => simpa [map, target?] using ih
  | _ => rfl

@[simp] theorem admits_map (f : ρ → σ) (k : Kind ρ) (v : Json) :
    (k.map f).admits v = k.admits v := by
  cases k <;> cases v <;> simp [map, admits]

end Kind

/-- One line of a table. -/
structure Field (ρ : Type) where
  /-- The name that the program knows the field by. -/
  name : String
  /-- The key that stands for the field in JSON. -/
  wire : String
  /-- The kind of its value. -/
  kind : Kind ρ
  /-- Whether the key must be present. -/
  required : Bool
deriving DecidableEq

namespace Field

variable {ρ σ : Type}

/-- The same field with each reference replaced. -/
def map (f : ρ → σ) (field : Field ρ) : Field σ :=
  ⟨field.name, field.wire, field.kind.map f, field.required⟩

/-- The value that an object holds for a field.  For a field that is not required, `null` is
the same as no value. -/
def held? (field : Field ρ) (ms : Members) : Option Json :=
  match Members.get? field.wire ms with
  | some .null => if field.required then some .null else none
  | found => found

theorem held?_eq_some_iff {field : Field ρ} {ms : Members} {v : Json} :
    field.held? ms = some v ↔
      Members.get? field.wire ms = some v ∧ (v = .null → field.required = true) := by
  unfold held?
  cases Members.get? field.wire ms with
  | none => simp
  | some found =>
    cases found with
    | null =>
      cases field.required with
      | false => constructor <;> simp +contextual
      | true => simp +contextual
    | _ =>
      constructor
      · intro h
        exact ⟨h, fun hnull => by simp [hnull] at h⟩
      · exact And.left

theorem held?_eq_none_iff {field : Field ρ} {ms : Members} :
    field.held? ms = none ↔ Members.get? field.wire ms = none ∨
      field.required = false ∧ Members.get? field.wire ms = some .null := by
  unfold held?
  cases Members.get? field.wire ms with
  | none => simp
  | some found => cases found <;> simp

theorem held?_of_required {field : Field ρ} {ms : Members} (h : field.required = true) :
    field.held? ms = Members.get? field.wire ms := by
  unfold held?
  split
  · rename_i hnull
    rw [if_pos h, hnull]
  · rfl

theorem get?_of_held? {field : Field ρ} {ms : Members} {v : Json}
    (h : field.held? ms = some v) : Members.get? field.wire ms = some v :=
  (held?_eq_some_iff.1 h).1

end Field

/-- A record: its name and its fields. -/
structure Table (ρ : Type) where
  /-- The name of the record. -/
  name : String
  /-- The fields, in order. -/
  fields : List (Field ρ)
deriving DecidableEq

/-- The keys that a table lists. -/
def Table.wires {ρ : Type} (table : Table ρ) : List String := table.fields.map Field.wire

/-- The line of a table for a key. -/
def Table.line? {ρ : Type} (table : Table ρ) (key : String) : Option (Field ρ) :=
  table.fields.find? fun f => f.wire == key

theorem Table.line?_eq_none_iff {ρ : Type} {table : Table ρ} {key : String} :
    table.line? key = none ↔ key ∉ table.wires := by
  simp [line?, wires]

theorem Table.mem_of_line? {ρ : Type} {table : Table ρ} {key : String} {f : Field ρ}
    (h : table.line? key = some f) : f ∈ table.fields ∧ f.wire = key :=
  ⟨List.mem_of_find?_eq_some h, by simpa using List.find?_some h⟩

theorem Table.line?_of_mem {ρ : Type} {table : Table ρ} {f : Field ρ}
    (distinct : table.wires.Nodup) (h : f ∈ table.fields) : table.line? f.wire = some f := by
  have key : ∀ fields : List (Field ρ), (fields.map Field.wire).Nodup → f ∈ fields →
      (fields.find? fun g => g.wire == f.wire) = some f := by
    intro fields nodup member
    induction fields with
    | nil => simp at member
    | cons g rest ih =>
      rw [List.map_cons, List.nodup_cons] at nodup
      rcases List.mem_cons.1 member with rfl | member
      · simp
      · have differs : g.wire ≠ f.wire := fun same =>
          nodup.1 (same ▸ List.mem_map.2 ⟨f, member, rfl⟩)
        rw [List.find?_cons_of_neg (by simpa using differs)]
        exact ih nodup.2 member
  exact key table.fields distinct h

theorem Table.eq_of_wire_eq {ρ : Type} {table : Table ρ} {f g : Field ρ}
    (distinct : table.wires.Nodup) (hf : f ∈ table.fields) (hg : g ∈ table.fields)
    (same : f.wire = g.wire) : f = g := by
  have found := Table.line?_of_mem distinct hf
  rw [same, Table.line?_of_mem distinct hg] at found
  exact (Option.some.inj found).symm

/-- The same table with each reference replaced. -/
def Table.map {ρ σ : Type} (f : ρ → σ) (table : Table ρ) : Table σ :=
  ⟨table.name, table.fields.map (Field.map f)⟩

/-- A record as it is declared, where references are names. -/
abbrev Declaration := Table String

end RecordSchema
