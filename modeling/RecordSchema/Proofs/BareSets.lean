/-
# Sets of records with bare positions

The positions of a resolved set are bounded, so there is a table at each of them.  A program
that keeps them as bare numbers looks up the table at a number, and gives up if none stands
there.  `Bare` is a set of this form, and its functions validate a payload and encode a record
with look-ups that may fail: each table, each name of a record in words, and the index.

`Schemas.bare` forgets the bounds of a resolved set.  The bare set then does what the resolved
one does (`Schemas.validate_bare`, `Schemas.encode_bare`): every look-up at a number succeeds,
however far the walk goes around a circle of references, and it finds the same table.  What is
looked up is decided step by step, so both are shown along the descent into the payload
(`Schemas.check_bare`, `Schemas.encodeValue_bare`).
-/
import RecordSchema.Proofs.Encoding
import RecordSchema.Record

namespace RecordSchema

/-- Tables whose references are numbers, with an index of numbers by name. -/
structure Bare where
  /-- The tables, in order. -/
  tables : List (Table Nat)
  /-- The number that the index has for a name. -/
  index : String → Option Nat

/-- Why something cannot be done with a bare set. -/
inductive Panic where
  /-- There is no table at a number. -/
  | outOfRange (n : Nat)
  /-- The program that uses the set is at fault. -/
  | fault (cause : Fault)
deriving DecidableEq

/-! ## Walks with look-ups that may fail -/

/-- Writes a field, like `Draft.write`. -/
def Draft.writeBare (options : EncodeOptions) (encode : Field Nat → Except Panic Json)
    (field : Field Nat) (d : Draft) : Except Panic Draft :=
  match field.held? d.left with
  | some _ => (encode field).map fun value => d.put field value
  | none => .ok (d.skip options field)

/-- Writes the members of a record, like `Table.writeMembers`. -/
def Table.writeBare (table : Table Nat) (options : EncodeOptions)
    (encode : Field Nat → Except Panic Json) (ms : Members) : Except Panic Members := do
  let d ← table.fields.foldlM (fun d f => d.writeBare options encode f) (Draft.mk ms [])
  (d.finish table.name).mapError .fault

namespace Bare

variable (B : Bare)

/-- The table at a number. -/
def table (n : Nat) : Except Panic (Table Nat) :=
  match B.tables[n]? with
  | some table => .ok table
  | none => .error (.outOfRange n)

/-- The number of the record with a name that the set should have. -/
def lookup (name : String) : Except Panic Nat :=
  match B.index name with
  | some n => .ok n
  | none => .error (.fault (.unknownRecord name))

/-- A kind of the set in words. -/
def describe : Kind Nat → Except Panic String
  | .array item => (describe item).map fun text => "array of " ++ text
  | .record n => (B.table n).map fun table => table.name ++ " object"
  -- The other kinds refer to no record, so there is no number to be named.
  | kind => .ok (kind.describe toString)

/-- The errors of a value whose kind does not look inside it. -/
def checkType (kind : Kind Nat) (v : Json) : Except Panic (List ValidationError) :=
  if kind.admits v then .ok []
  else (B.describe kind).map fun text => [Schemas.mismatch text v]

/-- The errors of the required fields whose key an object does not have. -/
def missingFields (fields : List (Field Nat)) (ms : Members) : List ValidationError :=
  (fields.filter fun f => f.required && !Members.contains f.wire ms).map fun f =>
    .missing (Path.root.key f.wire)

mutual

/-- All the errors of a value that should be of the given kind. -/
def check (kind : Kind Nat) : Json → Except Panic (List ValidationError)
  | .object ms =>
    match kind with
    | .record n => do
      let table ← B.table n
      let inside ← table.fields.mapM fun f =>
        if (f.held? ms).isSome then
          (checkMember f.wire f.kind ms).map (List.map (.under (.key f.wire)))
        else .ok []
      .ok (missingFields table.fields ms ++ inside.flatten)
    | _ => B.checkType kind (.object ms)
  | .array items =>
    match kind with
    | .array item => checkItems item 0 items
    | _ => B.checkType kind (.array items)
  | .string s =>
    match kind with
    | .oneOf literals => .ok (Schemas.checkLiteral literals s)
    | _ => B.checkType kind (.string s)
  | v => B.checkType kind v

/-- The errors of the items of an array, the first of which has the given index. -/
def checkItems (kind : Kind Nat) (index : Nat) : List Json → Except Panic (List ValidationError)
  | [] => .ok []
  | v :: rest => do
    let first ← check kind v
    let others ← checkItems kind (index + 1) rest
    .ok (first.map (.under (.index index)) ++ others)

/-- The errors of the member with the given key. -/
def checkMember (key : String) (kind : Kind Nat) :
    List (String × Json) → Except Panic (List ValidationError)
  | [] => .ok []
  | (k, v) :: rest => if k = key then check kind v else checkMember key kind rest

end

/-- The errors of a value that should be the record at a number.  Its table is looked up before
the value is looked at. -/
def checkRecord (n : Nat) (v : Json) : Except Panic (List ValidationError) := do
  let _ ← B.table n
  match v with
  | .object _ => B.check (.record n) v
  | _ => .ok [Schemas.mismatch "object" v]

/-- All the errors of a payload that should be the record with a name. -/
def validate (name : String) (payload : Json) : Except Panic (List ValidationError) := do
  let n ← B.lookup name
  B.checkRecord n payload

-- A number without a table is noticed inside of a payload, and in the words for a wrong value.
example : validate ⟨[⟨"A", [⟨"b", "b", .record 7, true⟩]⟩], fun _ => some 0⟩ "A"
    (.object [("b", .object [])]) = .error (.outOfRange 7) := rfl

example : validate ⟨[⟨"A", [⟨"b", "b", .array (.record 7), true⟩]⟩], fun _ => some 0⟩ "A"
    (.object [("b", .null)]) = .error (.outOfRange 7) := rfl

variable (options : EncodeOptions)

mutual

/-- The written form of a value of the given kind. -/
def encodeValue (kind : Kind Nat) : Json → Except Panic Json
  | .object ms =>
    match kind with
    | .record n => do
      let table ← B.table n
      (table.writeBare options (fun f => encodeMember f.wire f.kind ms) ms).map .object
    | _ => .ok (.object ms)
  | .array items =>
    match kind with
    | .array item => (encodeItems item items).map .array
    | _ => .ok (.array items)
  | v => .ok v

/-- The written forms of the items of an array. -/
def encodeItems (kind : Kind Nat) : List Json → Except Panic (List Json)
  | [] => .ok []
  | v :: rest => do
    let first ← encodeValue kind v
    let others ← encodeItems kind rest
    .ok (first :: others)

/-- The written form of the value of the member with the given key, `null` if there is none. -/
def encodeMember (key : String) (kind : Kind Nat) : List (String × Json) → Except Panic Json
  | [] => .ok .null
  | (k, v) :: rest => if k = key then encodeValue kind v else encodeMember key kind rest

end

/-- The written form of the members of the record at a number. -/
def encodeRecord (n : Nat) (ms : Members) : Except Panic Members := do
  let table ← B.table n
  table.writeBare options (fun f => B.encodeMember options f.wire f.kind ms) ms

end Bare

/-- The written form of a record. -/
def Bare.encode (B : Bare) {α : Type} (R : RecordType α) (r : α) (options : EncodeOptions) :
    Except Panic Members := do
  let n ← B.lookup R.name
  match R.write r with
  | .ok (.object ms) => B.encodeRecord options n ms
  | .ok v => .error (.fault (.notObject R.name v.typeName))
  | .error detail => .error (.fault (.unwritable R.name detail))

/-! ## Forgetting the bounds -/

/-- The set with the bounds of its positions forgotten. -/
def Schemas.bare (S : Schemas) : Bare where
  tables := S.tables.map (Table.map Fin.val)
  index name := (S.find? name).map Fin.val

namespace Schemas

variable {S : Schemas}

@[simp] lemma table_bare (i : Fin S.size) : S.bare.table i.val = .ok ((S.table i).map Fin.val) := by
  have hlt : i.val < S.tables.length := S.length_tables.symm ▸ i.isLt
  rw [Bare.table, bare, List.getElem?_map, List.getElem?_eq_getElem hlt]
  rfl

lemma lookup_bare (name : String) :
    S.bare.lookup name = ((S.lookup name).map Fin.val).mapError .fault := by
  have hindex : S.bare.index name = (S.find? name).map Fin.val := rfl
  rw [Bare.lookup, lookup, hindex]
  cases S.find? name <;> rfl

/-! ## The same errors -/

/-- The name of a record that stands in the words for a kind is found. -/
lemma describe_bare (kind : Kind (Fin S.size)) :
    S.bare.describe (kind.map Fin.val) = .ok (S.describe kind) := by
  induction kind with
  | array item ih =>
    rw [Kind.map, Bare.describe, ih]
    rfl
  | record i =>
    rw [Kind.map, Bare.describe, table_bare]
    rfl
  | _ => rfl

lemma checkType_bare (kind : Kind (Fin S.size)) (v : Json) :
    S.bare.checkType (kind.map Fin.val) v = .ok (S.checkType kind v) := by
  rw [Bare.checkType, checkType, Kind.admits_map]
  split
  · rfl
  · rw [describe_bare]
    rfl

lemma missingFields_bare (fields : List (Field (Fin S.size))) (ms : Members) :
    Bare.missingFields (fields.map (Field.map Fin.val)) ms = S.missingFields fields ms := by
  rw [Bare.missingFields, missingFields, List.filter_map, List.map_map]
  rfl

end Schemas

lemma Bare.checkMember_eq (B : Bare) (key : String) (kind : Kind Nat) (ms : Members) :
    B.checkMember key kind ms =
      match Members.get? key ms with
      | some v => B.check kind v
      | none => .ok [] :=
  Members.eq_match_get? (by rw [checkMember]) (fun _ _ _ => by rw [checkMember]) ms

/-- The errors of the value that an object holds for a field. -/
def Bare.checkField (B : Bare) (f : Field Nat) (ms : Members) :
    Except Panic (List ValidationError) :=
  match f.held? ms with
  | some v => (B.check f.kind v).map (List.map (.under (.key f.wire)))
  | none => .ok []

/-- The errors of a record whose table is found. -/
lemma Bare.check_record {B : Bare} {n : Nat} {table : Table Nat} (h : B.table n = .ok table)
    (ms : Members) :
    B.check (.record n) (.object ms) = (table.fields.mapM (B.checkField · ms)).map fun inside =>
      missingFields table.fields ms ++ inside.flatten := by
  have hfield : ∀ f : Field Nat, (if (f.held? ms).isSome then
      (B.checkMember f.wire f.kind ms).map (List.map (.under (.key f.wire))) else .ok []) =
      B.checkField f ms := by
    intro f
    rw [checkField]
    cases hv : f.held? ms with
    | none => rfl
    | some v =>
      rw [checkMember_eq, Field.get?_of_held? hv]
      rfl
  rw [check, h]
  simp only [hfield]
  rfl

namespace Schemas

variable {S : Schemas}

lemma checkItems_bare {item : Kind (Fin S.size)} {items : List Json}
    (h : ∀ v ∈ items, S.bare.check (item.map Fin.val) v = .ok (S.check item v)) (index : Nat) :
    S.bare.checkItems (item.map Fin.val) index items = .ok (S.checkItems item index items) := by
  induction items generalizing index with
  | nil => rw [Bare.checkItems, checkItems]
  | cons v rest ih =>
    obtain ⟨hv, hrest⟩ := List.forall_mem_cons.1 h
    rw [Bare.checkItems, checkItems, hv, ih hrest]
    rfl

/-- No look-up fails on the way down into a payload, and the errors found are the same. -/
theorem check_bare (kind : Kind (Fin S.size)) (v : Json) :
    S.bare.check (kind.map Fin.val) v = .ok (S.check kind v) := by
  induction kind, v using descend with
  | flat kind v hflat =>
    cases kind <;> cases v <;>
      first
      | exact checkType_bare _ _
      | rfl
      | cases hflat
  | array item items ih =>
    rw [Kind.map, Bare.check, check, checkItems_bare ih]
  | record i ms ih =>
    rw [Kind.map, Bare.check_record (table_bare i), check_record, ← missingFields_bare]
    have hfields : ((S.table i).map Fin.val).fields.mapM (S.bare.checkField · ms) =
        .ok ((S.table i).fields.map fun f => S.checkField f ms) := by
      rw [Table.map, List.mapM_map]
      refine mapM_eq_ok_map fun f hf => ?_
      show S.bare.checkField (f.map Fin.val) ms = .ok (S.checkField f ms)
      have hheld : (f.map Fin.val).held? ms = f.held? ms := rfl
      rw [Bare.checkField, checkField, hheld]
      cases hv : f.held? ms with
      | none => rfl
      | some v => exact congrArg (Except.map _) (ih f hf v hv)
    rw [hfields, List.flatMap_def]
    rfl

/-- The bare set finds the errors that the set finds. -/
theorem validate_bare (S : Schemas) (name : String) (payload : Json) :
    S.bare.validate name payload = (S.validate name payload).mapError .fault := by
  have hrecord : ∀ i, S.bare.checkRecord i.val payload = .ok (S.checkRecord i payload) := by
    intro i
    unfold Bare.checkRecord
    rw [table_bare]
    cases payload with
    | object ms => exact check_bare (.record i) (.object ms)
    | _ => rfl
  rw [Bare.validate, validate, lookup_bare]
  cases S.lookup name with
  | error fault => rfl
  | ok i => exact hrecord i

end Schemas

/-! ## The same encoding -/

section Writing

variable {ρ : Type} {options : EncodeOptions} {encode : Field ρ → Except Fault Json}
  {encodeBare : Field Nat → Except Panic Json} {position : ρ → Nat}

lemma Draft.foldlM_writeBare {fields : List (Field ρ)}
    (h : ∀ f ∈ fields, encodeBare (f.map position) = (encode f).mapError .fault) (d : Draft) :
    (fields.map (Field.map position)).foldlM
        (fun d f => Draft.writeBare options encodeBare f d) d =
      (fields.foldlM (fun d f => Draft.write options encode f d) d).mapError .fault := by
  induction fields generalizing d with
  | nil => rfl
  | cons f rest ih =>
    obtain ⟨hf, hrest⟩ := List.forall_mem_cons.1 h
    have hwrite : d.writeBare options encodeBare (f.map position) =
        (d.write options encode f).mapError .fault := by
      rw [writeBare, write, hf]
      show (match f.held? d.left with | some _ => _ | none => _) = _
      cases f.held? d.left with
      | none => rfl
      | some v => cases encode f <;> rfl
    rw [List.map_cons, List.foldlM_cons, List.foldlM_cons, hwrite]
    cases d.write options encode f with
    | error fault => rfl
    | ok d' => exact ih hrest d'

/-- Members are written alike if the values of all fields are. -/
lemma Table.writeMembers_bare {table : Table ρ}
    (h : ∀ f ∈ table.fields, encodeBare (f.map position) = (encode f).mapError .fault)
    (ms : Members) :
    (table.map position).writeBare options encodeBare ms =
      (table.writeMembers options encode ms).mapError .fault := by
  rw [writeBare, writeMembers, Table.map, Draft.foldlM_writeBare h]
  cases table.fields.foldlM (fun d f => Draft.write options encode f d) ⟨ms, []⟩ <;> rfl

end Writing

lemma Bare.encodeMember_eq (B : Bare) (options : EncodeOptions) (key : String) (kind : Kind Nat)
    (ms : Members) :
    B.encodeMember options key kind ms =
      match Members.get? key ms with
      | some v => B.encodeValue options kind v
      | none => .ok .null :=
  Members.eq_match_get? (by rw [encodeMember]) (fun _ _ _ => by rw [encodeMember]) ms

lemma Bare.encodeValue_record (B : Bare) (options : EncodeOptions) (n : Nat) (ms : Members) :
    B.encodeValue options (.record n) (.object ms) =
      (B.encodeRecord options n ms).map .object := by
  rw [encodeValue, encodeRecord]
  cases B.table n <;> rfl

namespace Schemas

variable {S : Schemas} {options : EncodeOptions}

/-- Members are written alike if the values of all keys of the table are. -/
lemma encodeRecord_bare {i : Fin S.size} {ms : Members}
    (h : ∀ f ∈ (S.table i).fields, S.bare.encodeMember options f.wire (f.kind.map Fin.val) ms =
      (S.encodeMember options f.wire f.kind ms).mapError .fault) :
    S.bare.encodeRecord options i.val ms = (S.encodeRecord options i ms).mapError .fault := by
  rw [Bare.encodeRecord, table_bare, encodeRecord]
  exact Table.writeMembers_bare h ms

lemma encodeItems_bare {item : Kind (Fin S.size)} {items : List Json}
    (h : ∀ v ∈ items, S.bare.encodeValue options (item.map Fin.val) v =
      (S.encodeValue options item v).mapError .fault) :
    S.bare.encodeItems options (item.map Fin.val) items =
      (S.encodeItems options item items).mapError .fault := by
  induction items with
  | nil =>
    rw [Bare.encodeItems, encodeItems]
    rfl
  | cons v rest ih =>
    obtain ⟨hv, hrest⟩ := List.forall_mem_cons.1 h
    rw [Bare.encodeItems, encodeItems, hv, ih hrest]
    cases S.encodeValue options item v with
    | error fault => rfl
    | ok w => cases S.encodeItems options item rest <;> rfl

/-- No look-up fails on the way down into a value, and it is written in the same form or for the
same fault not at all. -/
theorem encodeValue_bare (kind : Kind (Fin S.size)) (v : Json) :
    S.bare.encodeValue options (kind.map Fin.val) v =
      (S.encodeValue options kind v).mapError .fault := by
  induction kind, v using descend with
  | flat kind v hflat =>
    cases kind <;> cases v <;>
      first
      | rfl
      | cases hflat
  | array item items ih =>
    rw [Kind.map, Bare.encodeValue, encodeValue, encodeItems_bare ih]
    cases S.encodeItems options item items <;> rfl
  | record i ms ih =>
    have hmember : ∀ f ∈ (S.table i).fields,
        S.bare.encodeMember options f.wire (f.kind.map Fin.val) ms =
          (S.encodeMember options f.wire f.kind ms).mapError .fault := by
      intro f hf
      rw [Bare.encodeMember_eq, encodeMember_eq]
      cases hv : Members.get? f.wire ms with
      | none => rfl
      | some v =>
        by_cases hnull : v = .null
        · -- The field may not hold the value, but there is nothing to look up for it.
          subst hnull
          cases f.kind <;> rfl
        · exact ih f hf v (Field.held?_eq_some_iff.2 ⟨hv, fun h => absurd h hnull⟩)
    rw [Kind.map, Bare.encodeValue_record, encodeValue_record, encodeRecord_bare hmember]
    cases S.encodeRecord options i ms <;> rfl

lemma encodeMember_bare (key : String) (kind : Kind (Fin S.size)) (ms : Members) :
    S.bare.encodeMember options key (kind.map Fin.val) ms =
      (S.encodeMember options key kind ms).mapError .fault := by
  rw [Bare.encodeMember_eq, encodeMember_eq]
  cases Members.get? key ms with
  | none => rfl
  | some v => exact encodeValue_bare kind v

/-- The bare set encodes a record as the set does, or fails with its fault. -/
theorem encode_bare (S : Schemas) {α : Type} (R : RecordType α) (r : α) (options : EncodeOptions) :
    S.bare.encode R r options = (S.encode R r options).mapError .fault := by
  rw [Bare.encode, encode, lookup_bare]
  cases S.lookup R.name with
  | error fault => rfl
  | ok i =>
    cases R.write r with
    | error detail => rfl
    | ok v =>
      cases v with
      | object ms => exact encodeRecord_bare fun f _ => encodeMember_bare f.wire f.kind ms
      | _ => rfl

end Schemas

end RecordSchema
