/-
# What a record depends on

A reference is the position of a record in its set, and positions change when the declarations
are put in another order or others are added.  What is done with a record does not: it depends
on the tables alone that the name of the record reaches.

Kinds of two sets correspond (`Schemas.Alike`) if they are the same kind by name and refer to a
record that is reached.  Then the records they refer to have corresponding fields
(`Schemas.Alike.fields`), so that the check and the encoder do the same in both sets, step by
step (`Schemas.Alike.check_eq`, `Schemas.Alike.encodeValue_eq`).  `agree_of_sameTables` says it
of whole payloads and records.
-/
import RecordSchema.Proofs.Encoding
import RecordSchema.Proofs.Resolution
import RecordSchema.Record
import Mathlib.Data.List.Forall2

namespace RecordSchema

/-- Each table that a name reaches is also among the other declarations.  If both resolve, it is
the table of its name there as well. -/
def SameTables (declared declared' : List Declaration) (record : String) : Prop :=
  ∀ d ∈ declared, Reaches declared record d.name → d ∈ declared'

/-- Two sets do the same with the record of a name. -/
structure Schemas.Agree (S S' : Schemas) (record : String) : Prop where
  /-- They find the same errors, in the same order and in the same words. -/
  validate : ∀ payload, S.validate record payload = S'.validate record payload
  /-- They construct the same record or refuse a payload with the same error. -/
  construct : ∀ {α : Type} (R : RecordType α), R.name = record →
    ∀ payload, S.construct R payload = S'.construct R payload
  /-- They encode a record as the same object or with the same fault. -/
  encode : ∀ {α : Type} (R : RecordType α), R.name = record →
    ∀ r options, S.encode R r options = S'.encode R r options

/-! ## Tables that write alike -/

section Writing

variable {ρ σ : Type} {options : EncodeOptions} {encode : Field ρ → Except Fault Json}
  {encode' : Field σ → Except Fault Json}

lemma Draft.write_congr {f : Field ρ} {g : Field σ} (hwire : f.wire = g.wire)
    (hrequired : f.required = g.required) (hencode : encode f = encode' g) (d : Draft) :
    d.write options encode f = d.write options encode' g := by
  unfold Draft.write Draft.skip Draft.put Field.held?
  rw [hwire, hrequired, hencode]

lemma Draft.foldlM_write_congr {fields : List (Field ρ)} {fields' : List (Field σ)}
    (h : List.Forall₂ (fun f g => f.wire = g.wire ∧ f.required = g.required ∧
      encode f = encode' g) fields fields') (d : Draft) :
    fields.foldlM (fun d f => Draft.write options encode f d) d
      = fields'.foldlM (fun d g => Draft.write options encode' g d) d := by
  induction h generalizing d with
  | nil => rfl
  | cons hfg _ ih =>
    rw [List.foldlM_cons, List.foldlM_cons, Draft.write_congr hfg.1 hfg.2.1 hfg.2.2]
    exact congrArg _ (funext ih)

/-- Tables of one name write members alike if all their fields do. -/
lemma Table.writeMembers_congr {table : Table ρ} {table' : Table σ}
    (hname : table.name = table'.name)
    (hfields : List.Forall₂ (fun f g => f.wire = g.wire ∧ f.required = g.required ∧
      encode f = encode' g) table.fields table'.fields) (ms : Members) :
    table.writeMembers options encode ms = table'.writeMembers options encode' ms := by
  rw [writeMembers, writeMembers, Draft.foldlM_write_congr hfields, hname]

end Writing

/-! ## Corresponding kinds -/

namespace Schemas

/-- Two kinds are the same by name, and a record that they refer to is reached. -/
structure Alike (S S' : Schemas) (record : String) (kind : Kind (Fin S.size))
    (kind' : Kind (Fin S'.size)) : Prop where
  names : kind.map S.nameOf = kind'.map S'.nameOf
  reached : ∀ i, kind.target? = some i → Reaches S.declarations record (S.nameOf i)

/-- Two fields are the same but for their kinds, which correspond. -/
structure AlikeFields (S S' : Schemas) (record : String) (f : Field (Fin S.size))
    (g : Field (Fin S'.size)) : Prop where
  wire : f.wire = g.wire
  required : f.required = g.required
  kind : S.Alike S' record f.kind g.kind

variable {S S' : Schemas} {record : String} {i : Fin S.size} {i' : Fin S'.size}
  {kind : Kind (Fin S.size)} {kind' : Kind (Fin S'.size)} {v : Json}
  (same : SameTables S.declarations S'.declarations record)

namespace Alike

lemma opens_eq (h : S.Alike S' record kind kind') (v : Json) : kind.opens v = kind'.opens v := by
  rw [← Kind.opens_map S.nameOf, h.names, Kind.opens_map]

lemma checkType_eq (h : S.Alike S' record kind kind') (v : Json) :
    S.checkType kind v = S'.checkType kind' v := by
  have hadmits : kind.admits v = kind'.admits v := by
    rw [← Kind.admits_map S.nameOf, h.names, Kind.admits_map]
  have hdescribe : S.describe kind = S'.describe kind' := by
    simpa [describe] using congrArg (Kind.describe id) h.names
  rw [checkType, checkType, hadmits, hdescribe]

lemma exists_array {item : Kind (Fin S.size)} (h : S.Alike S' record (.array item) kind') :
    ∃ item', kind' = .array item' ∧ S.Alike S' record item item' := by
  obtain ⟨item', rfl, hitem⟩ := Kind.map_eq_array_iff.1 h.names.symm
  exact ⟨item', rfl, hitem.symm, h.reached⟩

lemma exists_record (h : S.Alike S' record (.record i) kind') :
    ∃ i', kind' = .record i' := by
  obtain ⟨i', rfl, -⟩ := Kind.map_eq_record_iff.1 h.names.symm
  exact ⟨i', rfl⟩

include same in
/-- Records that correspond have the same table by name. -/
lemma map_table_eq (h : S.Alike S' record (.record i) (.record i')) :
    (S.table i).map S.nameOf = (S'.table i').map S'.nameOf := by
  have hmem := same _ (S.map_table_mem i) (h.reached i rfl)
  exact (map_table hmem (Kind.record.inj h.names).symm).symm

include same in
/-- The fields of records that correspond do so one by one. -/
theorem fields (h : S.Alike S' record (.record i) (.record i')) :
    List.Forall₂ (fun f g => f ∈ (S.table i).fields ∧ S.AlikeFields S' record f g)
      (S.table i).fields (S'.table i').fields := by
  have hfields := congrArg Table.fields (h.map_table_eq same)
  rw [Table.map, Table.map, ← List.forall₂_eq_eq_eq, List.forall₂_map_left_iff,
    List.forall₂_map_right_iff] at hfields
  refine ((List.forall₂_and_left _ _).2 ⟨fun _ hf => hf, hfields⟩).imp fun f g hfg => ?_
  obtain ⟨hf, hmap⟩ := hfg
  obtain ⟨-, hwire, hkind, hrequired⟩ := Field.mk.inj hmap
  refine ⟨hf, hwire, hrequired, hkind, fun j hj => (h.reached i rfl).tail ?_⟩
  exact ⟨_, S.map_table_mem i, rfl, f.map S.nameOf, List.mem_map.2 ⟨f, hf, rfl⟩,
    by simp [Field.map, hj]⟩

end Alike

/-! ## The same errors -/

lemma AlikeFields.held?_eq {f : Field (Fin S.size)} {g : Field (Fin S'.size)}
    (h : S.AlikeFields S' record f g) (ms : Members) : f.held? ms = g.held? ms := by
  unfold Field.held?
  rw [h.wire, h.required]

lemma missingFields_eq {fields : List (Field (Fin S.size))} {fields' : List (Field (Fin S'.size))}
    (h : List.Forall₂ (S.AlikeFields S' record) fields fields') (ms : Members) :
    S.missingFields fields ms = S'.missingFields fields' ms := by
  unfold missingFields
  induction h with
  | nil => rfl
  | @cons f g rest rest' hfg _ ih =>
    rw [List.filter_cons, List.filter_cons, hfg.wire, hfg.required]
    split
    · rw [List.map_cons, List.map_cons, ih, hfg.wire]
    · exact ih

include same in
/-- Values of kinds that correspond have the same errors. -/
theorem Alike.check_eq (h : S.Alike S' record kind kind') :
    S.check kind v = S'.check kind' v := by
  induction kind, v using descend generalizing kind' with
  | flat kind v hflat =>
    have hflat' : kind'.opens v = false := by rw [← h.opens_eq v, hflat]
    rcases check_of_flat hflat with ⟨literals, s, rfl, rfl, -⟩ | ⟨hliteral, hcheck⟩
    · obtain rfl := Kind.map_eq_oneOf_iff.1 h.names.symm
      rw [check, check]
    · rcases check_of_flat hflat' with ⟨literals, s, rfl, rfl, -⟩ | ⟨-, hcheck'⟩
      · exact absurd rfl (hliteral literals s (Kind.map_eq_oneOf_iff.1 h.names))
      · rw [hcheck, hcheck', h.checkType_eq]
  | array item items ih =>
    obtain ⟨item', rfl, hitem⟩ := h.exists_array
    rw [check_array, check_array]
    refine List.flatMap_congr fun m hm => ?_
    rw [ih m.1 (List.fst_mem_of_mem_zipIdx hm) hitem]
  | record i ms ih =>
    obtain ⟨i', rfl⟩ := h.exists_record
    have hfields := h.fields same
    have hchecks : (S.table i).fields.map (fun f => S.checkField f ms)
        = (S'.table i').fields.map fun g => S'.checkField g ms := by
      rw [← List.forall₂_eq_eq_eq, List.forall₂_map_left_iff, List.forall₂_map_right_iff]
      refine hfields.imp fun f g hboth => ?_
      obtain ⟨hf, hfg⟩ := hboth
      rw [checkField, checkField, ← hfg.held?_eq, hfg.wire]
      cases hw : f.held? ms with
      | none => rfl
      | some w => exact congrArg (List.map _) (ih f hf w hw hfg.kind)
    rw [check_record, check_record, List.flatMap_def, List.flatMap_def, hchecks,
      missingFields_eq (hfields.imp fun _ _ h => h.2)]

variable {options : EncodeOptions}

/-! ## The same encoding -/

lemma encodeItems_congr {item : Kind (Fin S.size)} {item' : Kind (Fin S'.size)}
    {items : List Json}
    (h : ∀ v ∈ items, S.encodeValue options item v = S'.encodeValue options item' v) :
    S.encodeItems options item items = S'.encodeItems options item' items := by
  induction items with
  | nil => rw [encodeItems, encodeItems]
  | cons v rest ih =>
    rw [encodeItems, encodeItems, h v List.mem_cons_self,
      ih fun w hw => h w (List.mem_cons_of_mem _ hw)]

include same in
/-- Values of kinds that correspond are encoded alike. -/
theorem Alike.encodeValue_eq (h : S.Alike S' record kind kind') (options : EncodeOptions) :
    S.encodeValue options kind v = S'.encodeValue options kind' v := by
  induction kind, v using descend generalizing kind' with
  | flat kind v hflat =>
    rw [encodeValue_of_flat hflat, encodeValue_of_flat (by rw [← h.opens_eq v, hflat])]
  | array item items ih =>
    obtain ⟨item', rfl, hitem⟩ := h.exists_array
    rw [encodeValue, encodeValue, encodeItems_congr fun v hv => ih v hv hitem]
  | record i ms ih =>
    obtain ⟨i', rfl⟩ := h.exists_record
    rw [encodeValue_record, encodeValue_record, encodeRecord, encodeRecord]
    refine congrArg (Except.map Json.object) (Table.writeMembers_congr
      (Kind.record.inj h.names) ((h.fields same).imp fun f g hboth => ?_) ms)
    obtain ⟨hf, hfg⟩ := hboth
    refine ⟨hfg.wire, hfg.required, ?_⟩
    rw [encodeMember_eq, encodeMember_eq, hfg.wire]
    cases hv : Members.get? g.wire ms with
    | none => rfl
    | some v =>
      by_cases hnull : v = .null
      · -- The value may be one that the field does not hold, but nothing is done about it.
        subst hnull
        exact (encodeValue_null f.kind).trans (encodeValue_null g.kind).symm
      · have hheld : f.held? ms = some v :=
          Field.held?_eq_some_iff.2 ⟨by rw [hfg.wire, hv], fun h => absurd h hnull⟩
        exact ih f hf v hheld hfg.kind

include same in
/-- Records that correspond are encoded alike. -/
theorem Alike.encodeRecord_eq (h : S.Alike S' record (.record i) (.record i'))
    (options : EncodeOptions) (ms : Members) :
    S.encodeRecord options i ms = S'.encodeRecord options i' ms := by
  have hvalue := h.encodeValue_eq same (v := .object ms) options
  rw [encodeValue_record, encodeValue_record] at hvalue
  cases hfirst : S.encodeRecord options i ms <;> cases hsecond : S'.encodeRecord options i' ms <;>
    simp_all [Except.map]

/-! ## The same behaviour -/

/-- A record that reaches the same tables in two sets is treated alike by both. -/
theorem agree (hi : S.nameOf i = record) (same : SameTables S.declarations S'.declarations record) :
    S.Agree S' record := by
  obtain ⟨i', hi'⟩ : ∃ i', S'.nameOf i' = record := by
    have hmem := same _ (S.map_table_mem i) (hi ▸ .refl)
    exact exists_nameOf (List.mem_map.2 ⟨_, hmem, hi⟩)
  have hroot : S.Alike S' record (.record i) (.record i') := by
    refine ⟨congrArg Kind.record (hi.trans hi'.symm), fun j hj => ?_⟩
    obtain rfl := Option.some.inj hj
    rw [hi]
    exact .refl
  have hcheck : ∀ payload, S.checkRecord i payload = S'.checkRecord i' payload := by
    intro payload
    cases payload with
    | object ms => exact hroot.check_eq same
    | _ => rfl
  refine ⟨fun payload => ?_, fun R hR payload => ?_, fun R hR r options => ?_⟩
  · rw [validate_eq hi, validate_eq hi', hcheck]
  · rw [construct, construct, hR, validate_eq hi, validate_eq hi', hcheck]
  · rw [encode, encode, hR, lookup_eq_ok hi, lookup_eq_ok hi']
    cases R.write r with
    | error detail => rfl
    | ok v =>
      cases v with
      | object ms => exact hroot.encodeRecord_eq same options ms
      | _ => rfl

end Schemas

/-- What is done with a record depends on the tables alone that its name reaches.  They are the
same among more declarations, in any order, and whether declarations resolve does not depend on
their order. -/
theorem agree_of_sameTables {declared declared' : List Declaration} :
    (∀ {S S' : Schemas} {record : String}, resolve declared = .ok S →
      resolve declared' = .ok S' → record ∈ declared.map Table.name →
      SameTables declared declared' record → S.Agree S' record) ∧
    (declared ⊆ declared' → ∀ record, SameTables declared declared' record) ∧
    (declared.Perm declared' →
      ((∃ S, resolve declared = .ok S) ↔ ∃ S', resolve declared' = .ok S')) := by
  refine ⟨fun resolved resolved' known same => ?_, fun h record d hd _ => h hd,
    exists_resolve_iff_of_perm⟩
  obtain rfl := declarations_of_resolve resolved
  obtain rfl := declarations_of_resolve resolved'
  obtain ⟨i, hi⟩ := Schemas.exists_nameOf known
  exact Schemas.agree hi same

/-- Nodes and owners in another order, and beside them a record that they do not reach and whose
table is another one. -/
theorem agree_nodes :
    ∃ declared declared' S S', declared = nodesAndOwners ++ [⟨"Visit", []⟩] ∧
      declared' = ⟨"Visit", [⟨"node", "node", .record "Node", true⟩]⟩ :: nodesAndOwners.reverse ∧
      resolve declared = .ok S ∧ resolve declared' = .ok S' ∧
      "Node" ∈ declared.map Table.name ∧ SameTables declared declared' "Node" ∧
      S.Agree S' "Node" := by
  have hclosed : ∀ d ∈ nodesAndOwners ++ [⟨"Visit", []⟩], d.name ∈ ["Node", "Owner"] →
      ∀ f ∈ d.fields, f.kind.target? ∈ [none, some "Node", some "Owner"] := by decide
  have hreached : ∀ name, Reaches (nodesAndOwners ++ [⟨"Visit", []⟩]) "Node" name →
      name ∈ ["Node", "Owner"] := by
    intro name h
    induction h with
    | refl => decide
    | tail _ hstep ih =>
      obtain ⟨d, hd, rfl, f, hf, htarget⟩ := hstep
      have htargets := hclosed d hd ih f hf
      rw [htarget] at htargets
      simpa using htargets
  have hmem : ∀ d ∈ nodesAndOwners ++ [⟨"Visit", []⟩], d.name ∈ ["Node", "Owner"] →
      d ∈ ⟨"Visit", [⟨"node", "node", .record "Node", true⟩]⟩ :: nodesAndOwners.reverse := by
    decide
  have same : SameTables (nodesAndOwners ++ [⟨"Visit", []⟩])
      (⟨"Visit", [⟨"node", "node", .record "Node", true⟩]⟩ :: nodesAndOwners.reverse) "Node" :=
    fun d hd h => hmem d hd (hreached d.name h)
  exact ⟨_, _, _, _, rfl, rfl, rfl, rfl, by decide, same,
    agree_of_sameTables.1 rfl rfl (by decide) same⟩

end RecordSchema
