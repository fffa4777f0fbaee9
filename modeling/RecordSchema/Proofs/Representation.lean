/-
# What a resolved set consists of

A resolved set consists of tables, of an index of positions by name, and of the positions that
are buried in the kinds of fields.  `Bare.Represents` says how the three belong together: the
tables are the declarations with each name replaced by its position, the index has just these
positions, and every position has a table whose name is the one that was declared.

A set represents the declarations that it gives back (`Schemas.represents`), hence those that it
was resolved from.  Since look-ups by its positions never fail, a payload is always validated
and a record that is written as an object is encoded unless it has stray keys
(`represents_of_resolve`).
-/
import RecordSchema.Proofs.BareSets
import RecordSchema.Proofs.Resolution
import RecordSchema.Proofs.StrayKeys

namespace RecordSchema

/-- The name of the record at a number. -/
def Bare.nameAt? (B : Bare) (n : Nat) : Option String := B.tables[n]?.map Table.name

/-- A bare set is what declarations resolve to. -/
structure Bare.Represents (B : Bare) (declared : List Declaration) : Prop where
  /-- The tables are the declarations in their order, field by field, with positions for names. -/
  tables : B.tables = declared.map (Table.map fun name => (declared.map Table.name).idxOf name)
  /-- The index has each name at its own position, and no other name. -/
  index : ∀ name n, B.index name = some n ↔ (declared.map Table.name)[n]? = some name
  /-- Whatever a field refers to, at any depth of its kind, there is a table for it. -/
  inRange : ∀ table ∈ B.tables, ∀ f ∈ table.fields, ∀ n, f.kind.target? = some n →
    n < B.tables.length
  /-- With names for positions the tables are the declarations again. -/
  named : B.tables.map (Table.map B.nameAt?) = declared.map (Table.map some)

/-! ## Replacing references twice -/

section Map

variable {ρ σ τ : Type} (f : ρ → σ) (g : σ → τ)

lemma Kind.map_map (kind : Kind ρ) : (kind.map f).map g = kind.map (g ∘ f) := by
  induction kind with
  | array item ih => rw [map, map, map, ih]
  | _ => rfl

lemma Table.map_map (table : Table ρ) : (table.map f).map g = table.map (g ∘ f) := by
  simp [map, Field.map, Kind.map_map, Function.comp_def]

end Map

/-! ## Positions and names -/

namespace Schemas

variable {S : Schemas}

lemma map_name_declarations (S : Schemas) : S.declarations.map Table.name = S.names := by
  rw [declarations, names, List.map_map]
  rfl

lemma getElem?_names_iff {name : String} {n : Nat} :
    S.names[n]? = some name ↔ ∃ i : Fin S.size, i.val = n ∧ S.nameOf i = name := by
  rw [names, List.getElem?_map]
  constructor
  · intro h
    obtain ⟨table, htable, hname⟩ := Option.map_eq_some_iff.1 h
    obtain ⟨hlt, rfl⟩ := List.getElem?_eq_some_iff.1 htable
    exact ⟨⟨n, S.length_tables ▸ hlt⟩, rfl, hname⟩
  · rintro ⟨i, rfl, rfl⟩
    rw [List.getElem?_eq_getElem (S.length_tables.symm ▸ i.isLt)]
    rfl

lemma getElem?_names (i : Fin S.size) : S.names[i.val]? = some (S.nameOf i) :=
  getElem?_names_iff.2 ⟨i, rfl, rfl⟩

/-- A name stands first where its record stands. -/
lemma idxOf_nameOf (i : Fin S.size) : S.names.idxOf (S.nameOf i) = i.val := by
  obtain ⟨hlt, hname⟩ := List.getElem?_eq_some_iff.1 (getElem?_names i)
  rw [← hname]
  exact S.nodup_names.idxOf_getElem i.val hlt

lemma nameAt?_bare (i : Fin S.size) : S.bare.nameAt? i.val = some (S.nameOf i) := by
  rw [← getElem?_names, names, List.getElem?_map, Bare.nameAt?, bare, List.getElem?_map,
    Option.map_map]
  rfl

/-- A set with its bounds forgotten represents the declarations that it gives back. -/
theorem represents (S : Schemas) : S.bare.Represents S.declarations where
  tables := by
    rw [map_name_declarations, declarations, List.map_map]
    refine List.map_congr_left fun table _ => ?_
    rw [Function.comp_apply, Table.map_map]
    exact congrArg (Table.map · table) (funext fun i => (idxOf_nameOf i).symm)
  index name n := by
    rw [map_name_declarations, getElem?_names_iff]
    constructor
    · intro h
      obtain ⟨i, hi, hn⟩ := Option.map_eq_some_iff.1 h
      exact ⟨i, hn, S.find?_eq_some_iff.1 hi⟩
    · rintro ⟨i, rfl, hname⟩
      exact Option.map_eq_some_iff.2 ⟨i, S.find?_eq_some_iff.2 hname, rfl⟩
  inRange table htable f hf n hn := by
    obtain ⟨bound, -, rfl⟩ := List.mem_map.1 htable
    obtain ⟨g, -, rfl⟩ := List.mem_map.1 hf
    rw [Field.map, Kind.target?_map] at hn
    obtain ⟨i, -, rfl⟩ := Option.map_eq_some_iff.1 hn
    rw [bare, List.length_map, S.length_tables]
    exact i.isLt
  named := by
    rw [declarations, List.map_map]
    show (S.tables.map (Table.map Fin.val)).map _ = _
    rw [List.map_map]
    refine List.map_congr_left fun table _ => ?_
    rw [Function.comp_apply, Function.comp_apply, Table.map_map, Table.map_map]
    exact congrArg (Table.map · table) (funext nameAt?_bare)

/-! ## What is done with a record of the set -/

variable {name : String}

lemma exists_validate_bare (h : name ∈ S.names) (payload : Json) :
    ∃ errors, S.validate name payload = .ok errors ∧ S.bare.validate name payload = .ok errors := by
  obtain ⟨i, hi⟩ := exists_nameOf (S.map_name_declarations ▸ h)
  refine ⟨S.checkRecord i payload, validate_eq hi payload, ?_⟩
  rw [validate_bare, validate_eq hi]
  rfl

lemma exists_describe_bare {table : Table Nat} {f : Field Nat} (htable : table ∈ S.bare.tables)
    (hf : f ∈ table.fields) : ∃ text, S.bare.describe f.kind = .ok text := by
  obtain ⟨bound, -, rfl⟩ := List.mem_map.1 htable
  obtain ⟨g, -, rfl⟩ := List.mem_map.1 hf
  exact ⟨_, describe_bare g.kind⟩

lemma encode_bare_cases {α : Type} {R : RecordType α} {r : α} {ms : Members}
    (known : R.name ∈ S.names) (written : R.write r = .ok (.object ms)) (options : EncodeOptions) :
    (∃ out, S.encode R r options = .ok out ∧ S.bare.encode R r options = .ok out) ∨
      ∃ record keys, S.encode R r options = .error (.strayKeys record keys) ∧
        S.bare.encode R r options = .error (.fault (.strayKeys record keys)) := by
  obtain ⟨i, hi⟩ := exists_nameOf (S.map_name_declarations ▸ known)
  rw [encode_bare, encode_eq_encodeRecord hi written]
  cases hencode : S.encodeRecord options i ms with
  | ok out => exact .inl ⟨out, rfl, rfl⟩
  | error fault =>
    obtain ⟨record, keys, rfl⟩ := exists_strayKeys_of_encodeRecord hencode
    exact .inr ⟨record, keys, rfl, rfl⟩

end Schemas

/-- The set that declarations resolve to represents them.  So no look-up by one of its positions
fails: every payload is validated against every name that is declared, every kind is described,
and a record that is written as an object is encoded or has stray keys. -/
theorem represents_of_resolve {declared : List Declaration} {S : Schemas}
    (resolved : resolve declared = .ok S) :
    S.bare.Represents declared ∧
    (∀ name ∈ declared.map Table.name, ∀ payload, ∃ errors,
      S.validate name payload = .ok errors ∧ S.bare.validate name payload = .ok errors) ∧
    (∀ table ∈ S.bare.tables, ∀ f ∈ table.fields, ∃ text, S.bare.describe f.kind = .ok text) ∧
    ∀ {α : Type} (R : RecordType α) (r : α) (ms : Members) (options : EncodeOptions),
      R.name ∈ declared.map Table.name → R.write r = .ok (.object ms) →
      (∃ out, S.encode R r options = .ok out ∧ S.bare.encode R r options = .ok out) ∨
        ∃ record keys, S.encode R r options = .error (.strayKeys record keys) ∧
          S.bare.encode R r options = .error (.fault (.strayKeys record keys)) := by
  obtain rfl := declarations_of_resolve resolved
  rw [S.map_name_declarations]
  exact ⟨S.represents, fun name h => Schemas.exists_validate_bare h,
    fun table htable f hf => Schemas.exists_describe_bare htable hf,
    fun R r ms options known written => Schemas.encode_bare_cases known written options⟩

/-- Nodes and owners refer to each other.  The root of the owner of a node has a stray key. -/
theorem represents_nodesAndOwners :
    ∃ S payload, resolve nodesAndOwners = .ok S ∧ S.bare.Represents nodesAndOwners ∧
      payload = .object [("label", .string "a"), ("owner_ref", .object [("id", .null),
        ("root", .object [("label", .string "b"), ("owner_ref", .object []),
          ("spare", .null)])])] ∧
      (∃ errors, S.validate "Node" payload = .ok errors ∧
        S.bare.validate "Node" payload = .ok errors) ∧
      S.bare.encode ⟨"Node", [], .ok, .ok⟩ payload .standard =
        .error (.fault (.strayKeys "Node" ["spare"])) := by
  have resolved : resolve nodesAndOwners = .ok _ := rfl
  obtain ⟨hset, hvalid, -, hencode⟩ := represents_of_resolve resolved
  refine ⟨_, _, resolved, hset, rfl, hvalid "Node" (by decide) _, ?_⟩
  rcases hencode ⟨"Node", [], .ok, .ok⟩ (.object [("label", .string "a"), ("owner_ref",
      .object [("id", .null), ("root", .object [("label", .string "b"),
        ("owner_ref", .object []), ("spare", .null)])])]) _ .standard (by decide) rfl with
    ⟨out, hout, -⟩ | ⟨record, keys, hfault, hbare⟩
  · cases hout
  · rw [hbare]
    cases hfault
    rfl

end RecordSchema
