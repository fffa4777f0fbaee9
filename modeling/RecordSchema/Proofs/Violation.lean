/-
# The errors of a payload are its violations

What is wrong with a payload can be said by the declarations alone, without the check that
looks for it.  `Position` says which values the declarations look at, with references followed
by name, and `Violation` what they have against one of these values.  `mem_validate_iff` says
that validation reports just the violations: none is missed and none is made up, in sets with
circular references and in nested arrays too.

Every error is one at a value where the descent along the tables leads
(`Schemas.violation_of_mem_check`), and all the errors there are errors of the whole payload
(`Schemas.Located.along_mem_check`).
-/
import RecordSchema.Proofs.Conformance
import RecordSchema.Proofs.Resolution

namespace RecordSchema

/-! ## Violations -/

/-- A value has the JSON type that a kind asks for. -/
inductive Kind.HasType {ρ : Type} : Kind ρ → Json → Prop
  | any (v : Json) : HasType .any v
  | string (s : String) : HasType .string (.string s)
  | integer (n : Int) : HasType .integer (.number (.integer n))
  | boolean (b : Bool) : HasType .boolean (.boolean b)
  | object (ms : Members) : HasType .object (.object ms)
  | oneOf (literals : List String) (s : String) : HasType (.oneOf literals) (.string s)
  | array (item : Kind ρ) (items : List Json) : HasType (.array item) (.array items)
  | record (target : ρ) (ms : Members) : HasType (.record target) (.object ms)

/-- The values that declarations look at in a payload for the record with a name: where they
are and of which kind they should be. -/
inductive Position (declared : List Declaration) (record : String) (payload : Json) :
    Path → Kind String → Json → Prop
  /-- The payload should be the record. -/
  | root : Position declared record payload .root (.record record) payload
  /-- A value that an object holds for a field should be of the kind of the field, unless it is
  `null` and the field is not required. -/
  | field {p : Path} {d : Declaration} {ms : Members} {f : Field String} {v : Json}
      (position : Position declared record payload p (.record d.name) (.object ms))
      (table : d ∈ declared) (line : f ∈ d.fields) (present : Members.get? f.wire ms = some v)
      (counts : v = .null → f.required = true) :
      Position declared record payload (p.key f.wire) f.kind v
  /-- Each item of an array should be of the kind of items. -/
  | item {p : Path} {item : Kind String} {items : List Json} {n : Nat} {v : Json}
      (position : Position declared record payload p (.array item) (.array items))
      (present : items[n]? = some v) :
      Position declared record payload (p.index n) item v

/-- What is wrong with a payload for the record with a name, and where. -/
inductive Violation (declared : List Declaration) (record : String) (payload : Json) :
    Path → Reason → Prop
  /-- An object lacks the key of a required field. -/
  | missing {p : Path} {d : Declaration} {ms : Members} {f : Field String}
      (position : Position declared record payload p (.record d.name) (.object ms))
      (table : d ∈ declared) (line : f ∈ d.fields) (required : f.required = true)
      (absent : Members.get? f.wire ms = none) :
      Violation declared record payload (p.key f.wire) .missing
  /-- A string is none of the literals. -/
  | notAllowed {p : Path} {literals : List String} {s : String}
      (position : Position declared record payload p (.oneOf literals) (.string s))
      (other : s ∉ literals) :
      Violation declared record payload p (.notAllowed s literals)
  /-- The payload is not an object. -/
  | notObject (other : ∀ ms, payload ≠ .object ms) :
      Violation declared record payload .root (.invalidType "object" payload.typeName)
  /-- A value inside the payload has another type than its kind asks for. -/
  | invalidType {p : Path} {kind : Kind String} {v : Json}
      (position : Position declared record payload p kind v) (inside : p ≠ .root)
      (other : ¬ kind.HasType v) :
      Violation declared record payload p (.invalidType (kind.describe id) v.typeName)

namespace Kind

variable {ρ σ : Type} {f : ρ → σ} {kind : Kind ρ}

lemma admits_iff_hasType {v : Json} : kind.admits v = true ↔ kind.HasType v := by
  constructor
  · intro h
    cases kind with
    | any => exact .any v
    | integer =>
      cases v with
      | number n =>
        cases n with
        | integer n => exact .integer n
        | float x => cases h
      | _ => cases h
    | _ => cases v <;> first | constructor | cases h
  · intro h
    cases h <;> rfl

lemma hasType_map {v : Json} : (kind.map f).HasType v ↔ kind.HasType v := by
  rw [← admits_iff_hasType, admits_map, admits_iff_hasType]

end Kind

/-! ## Positions lie along the tables -/

namespace Schemas

variable {S : Schemas} {i : Fin S.size} {payload : Json} {p q : Path}

/-- From a position, the descent leads to further positions. -/
lemma Located.position {kind kind' : Kind (Fin S.size)} {v w : Json}
    (h : S.Located kind v q kind' w)
    (hp : Position S.declarations (S.nameOf i) payload p (kind.map S.nameOf) v) :
    Position S.declarations (S.nameOf i) payload (p ++ q) (kind'.map S.nameOf) w := by
  induction h generalizing p with
  | here kind v => rwa [List.append_nil]
  | @member j ms f v w q kind field held inside ih =>
    obtain ⟨hget, hnull⟩ := Field.held?_eq_some_iff.1 held
    have hstep : Position S.declarations (S.nameOf i) payload (p.key f.wire)
        (f.kind.map S.nameOf) v :=
      .field (d := (S.table j).map S.nameOf) (f := f.map S.nameOf) hp (S.map_table_mem j)
        (List.mem_map.2 ⟨f, field, rfl⟩) hget hnull
    simpa [Path.key] using ih hstep
  | @item item items n v w q kind found inside ih =>
    have hstep : Position S.declarations (S.nameOf i) payload (p.index n) (item.map S.nameOf) v :=
      .item hp found
    simpa [Path.index] using ih hstep

/-- The positions of a payload are where the descent leads. -/
theorem position_iff_located {kind : Kind String} {v : Json} :
    Position S.declarations (S.nameOf i) payload p kind v ↔
      ∃ kind', kind'.map S.nameOf = kind ∧ S.Located (.record i) payload p kind' v := by
  constructor
  · intro h
    induction h with
    | root => exact ⟨.record i, rfl, .here _ _⟩
    | @field p d ms f v position table line present counts ih =>
      obtain ⟨kind, hkind, hlocated⟩ := ih
      obtain ⟨j, rfl, hj⟩ := Kind.map_eq_record_iff.1 hkind
      obtain rfl := map_table table hj
      obtain ⟨g, hg, rfl⟩ := List.mem_map.1 line
      have hheld : g.held? ms = some v := Field.held?_eq_some_iff.2 ⟨present, counts⟩
      exact ⟨g.kind, rfl, hlocated.trans (.member hg hheld (.here _ _))⟩
    | item position present ih =>
      obtain ⟨kind, hkind, hlocated⟩ := ih
      obtain ⟨item, rfl, rfl⟩ := Kind.map_eq_array_iff.1 hkind
      exact ⟨item, rfl, hlocated.trans (.item present (.here _ _))⟩
  · rintro ⟨kind', rfl, hlocated⟩
    exact hlocated.position .root

end Schemas

/-! ## Errors seen from further up -/

/-- The error as it is seen from where a path begins. -/
def ValidationError.along (p : Path) (e : ValidationError) : ValidationError :=
  ⟨p ++ e.path, e.reason⟩

namespace Schemas

variable {S : Schemas} {i : Fin S.size} {ms : Members} {e : ValidationError} {p : Path}
  {kind kind' : Kind (Fin S.size)} {v w : Json}

lemma mem_check_array_iff {item : Kind (Fin S.size)} {items : List Json} :
    e ∈ S.check (.array item) (.array items) ↔
      ∃ n w, items[n]? = some w ∧ ∃ e' ∈ S.check item w, e'.under (.index n) = e := by
  rw [check_array, List.mem_flatMap]
  constructor
  · rintro ⟨⟨w, n⟩, hw, he⟩
    exact ⟨n, w, List.mk_mem_zipIdx_iff_getElem?.1 hw, List.mem_map.1 he⟩
  · rintro ⟨n, w, hw, he⟩
    exact ⟨(w, n), List.mk_mem_zipIdx_iff_getElem?.2 hw, List.mem_map.2 he⟩

lemma mem_missingFields_iff {fields : List (Field (Fin S.size))} :
    e ∈ S.missingFields fields ms ↔ ∃ f ∈ fields, f.required = true ∧
      Members.get? f.wire ms = none ∧ .missing (Path.root.key f.wire) = e := by
  simp [missingFields, Members.contains, and_assoc]

lemma mem_checkField_iff {f : Field (Fin S.size)} :
    e ∈ S.checkField f ms ↔
      ∃ w, f.held? ms = some w ∧ ∃ e' ∈ S.check f.kind w, e'.under (.key f.wire) = e := by
  unfold checkField
  cases f.held? ms <;> simp

lemma mem_check_record_iff :
    e ∈ S.check (.record i) (.object ms) ↔
      e ∈ S.missingFields (S.table i).fields ms ∨
        ∃ f ∈ (S.table i).fields, e ∈ S.checkField f ms := by
  rw [check_record, List.mem_append, List.mem_flatMap]

lemma mem_checkType_iff :
    e ∈ S.checkType kind v ↔ ¬ kind.HasType v ∧ e = mismatch (S.describe kind) v := by
  rw [← Kind.admits_iff_hasType, checkType]
  split <;> simp [*]

lemma mem_checkLiteral_iff {literals : List String} {s : String} :
    e ∈ checkLiteral literals s ↔ s ∉ literals ∧ e = ⟨Path.root, .notAllowed s literals⟩ := by
  rw [checkLiteral]
  split <;> simp [*]

/-- The errors of a value that is not looked into. -/
lemma mem_check_of_flat (hflat : kind.opens v = false) :
    e ∈ S.check kind v ↔
      (¬ kind.HasType v ∧ e = mismatch (S.describe kind) v) ∨
        ∃ literals s, kind = .oneOf literals ∧ v = .string s ∧ s ∉ literals ∧
          e = ⟨Path.root, .notAllowed s literals⟩ := by
  rcases check_of_flat hflat with ⟨literals, s, rfl, rfl, hcheck⟩ | ⟨hliteral, hcheck⟩
  · rw [hcheck, mem_checkLiteral_iff]
    simp [Kind.HasType.oneOf]
  · rw [hcheck, mem_checkType_iff]
    constructor
    · exact .inl
    · rintro (h | ⟨literals, s, hkind, hv, -⟩)
      · exact h
      · exact absurd hv (hliteral literals s hkind)

/-- The errors of a value where the descent leads are errors of the whole. -/
theorem Located.along_mem_check (h : S.Located kind v p kind' w) (he : e ∈ S.check kind' w) :
    e.along p ∈ S.check kind v := by
  induction h with
  | here => exact he
  | @member i ms f v w p kind field held inside ih =>
    exact mem_check_record_iff.2
      (.inr ⟨f, field, mem_checkField_iff.2 ⟨v, held, e.along p, ih he, rfl⟩⟩)
  | @item item items n v w p kind found inside ih =>
    exact mem_check_array_iff.2 ⟨n, v, found, e.along p, ih he, rfl⟩

/-! ## Errors are violations -/

/-- Every error of a value at a position is a violation. -/
theorem violation_of_mem_check
    (hp : Position S.declarations (S.nameOf i) payload p (kind.map S.nameOf) v)
    (hroot : p = .root → kind.HasType v) (he : e ∈ S.check kind v) :
    Violation S.declarations (S.nameOf i) payload (p ++ e.path) e.reason := by
  induction kind, v using descend generalizing p e with
  | flat kind v hflat =>
    rcases (mem_check_of_flat hflat).1 he with ⟨htype, rfl⟩ | ⟨literals, s, rfl, rfl, hs, rfl⟩
    · have hviolation : Violation S.declarations (S.nameOf i) payload p _ :=
        .invalidType hp (fun h => htype (hroot h)) (mt Kind.hasType_map.1 htype)
      simpa [mismatch, Path.root, describe] using hviolation
    · simpa [Path.root] using Violation.notAllowed hp hs
  | array item items ih =>
    obtain ⟨n, w, hw, e', he', rfl⟩ := mem_check_array_iff.1 he
    have hitem := ih w (List.mem_of_getElem? hw) (.item hp hw) (by simp [Path.index, Path.root]) he'
    simpa [Path.index] using hitem
  | record j ms ih =>
    have hfield : ∀ f ∈ (S.table j).fields,
        f.map S.nameOf ∈ ((S.table j).map S.nameOf).fields := fun f hf =>
      List.mem_map.2 ⟨f, hf, rfl⟩
    rcases mem_check_record_iff.1 he with hmissing | ⟨f, hf, hinside⟩
    · obtain ⟨f, hf, hrequired, habsent, rfl⟩ := mem_missingFields_iff.1 hmissing
      exact .missing hp (S.map_table_mem j) (hfield f hf) hrequired habsent
    · obtain ⟨w, hw, e', he', rfl⟩ := mem_checkField_iff.1 hinside
      have hstep := (Located.member hf hw (.here _ _)).position hp
      have hvalue := ih f hf w hw hstep (by simp [Path.root]) he'
      simpa using hvalue

/-- Below the root, and at an object, the payload is checked as the record. -/
lemma Located.along_mem_checkRecord (h : S.Located (.record i) payload p kind w)
    (he : e ∈ S.check kind w) (hinside : p ≠ [] ∨ ∃ ms, w = .object ms) :
    e.along p ∈ S.checkRecord i payload := by
  cases payload with
  | object ms => exact h.along_mem_check he
  | _ =>
    obtain ⟨rfl, rfl, rfl⟩ := h.of_flat rfl
    simp at hinside

theorem mem_checkRecord_of_violation {r : Reason}
    (h : Violation S.declarations (S.nameOf i) payload p r) :
    ⟨p, r⟩ ∈ S.checkRecord i payload := by
  cases h with
  | @missing p d ms f position table line required absent =>
    obtain ⟨kind, hkind, hlocated⟩ := position_iff_located.1 position
    obtain ⟨j, rfl, hj⟩ := Kind.map_eq_record_iff.1 hkind
    obtain rfl := map_table table hj
    obtain ⟨g, hg, rfl⟩ := List.mem_map.1 line
    exact hlocated.along_mem_checkRecord (mem_check_record_iff.2
      (.inl (mem_missingFields_iff.2 ⟨g, hg, required, absent, rfl⟩))) (.inr ⟨ms, rfl⟩)
  | notAllowed position other =>
    obtain ⟨kind, hkind, hlocated⟩ := position_iff_located.1 position
    obtain rfl := Kind.map_eq_oneOf_iff.1 hkind
    have hinside : p ≠ [] := by
      rintro rfl
      cases hlocated
    have he := hlocated.along_mem_checkRecord
      ((mem_check_of_flat rfl).2 (.inr ⟨_, _, rfl, rfl, other, rfl⟩)) (.inl hinside)
    simpa [ValidationError.along, Path.root] using he
  | notObject other =>
    cases payload with
    | object ms => exact absurd rfl (other ms)
    | _ => exact List.mem_singleton.2 rfl
  | @invalidType p kind v position inside other =>
    obtain ⟨kind, rfl, hlocated⟩ := position_iff_located.1 position
    have hflat : kind.opens v = false := by
      by_contra hopens
      cases kind <;> cases v <;> simp [Kind.opens] at hopens
      all_goals exact other (by constructor)
    have he := hlocated.along_mem_checkRecord
      ((mem_check_of_flat hflat).2 (.inl ⟨mt Kind.hasType_map.2 other, rfl⟩)) (.inl inside)
    simpa [ValidationError.along, mismatch, Path.root, describe] using he

/-- The errors of a payload that should be a record are its violations. -/
theorem mem_checkRecord_iff :
    e ∈ S.checkRecord i payload ↔
      Violation S.declarations (S.nameOf i) payload e.path e.reason := by
  refine ⟨fun he => ?_, mem_checkRecord_of_violation⟩
  cases payload with
  | object ms => exact violation_of_mem_check .root (fun _ => .record i ms) he
  | _ =>
    obtain rfl := List.mem_singleton.1 he
    exact .notObject (by simp)

end Schemas

/-- The errors that validation reports are just the violations of the payload. -/
theorem mem_validate_iff {declared : List Declaration} {S : Schemas} {record : String}
    (resolved : resolve declared = .ok S) (known : record ∈ declared.map Table.name)
    (payload : Json) :
    ∃ errors, S.validate record payload = .ok errors ∧
      ∀ path reason, ⟨path, reason⟩ ∈ errors ↔
        Violation declared record payload path reason := by
  obtain rfl := declarations_of_resolve resolved
  obtain ⟨i, rfl⟩ := Schemas.exists_nameOf known
  exact ⟨_, Schemas.validate_eq rfl payload, fun path reason => Schemas.mem_checkRecord_iff⟩

/-- A node with a label that is `null`, a child without a label, and an owner whose number has a
fraction: the `null` for the root of the owner is no violation. -/
theorem mem_validate_nodes :
    ∃ S payload errors, resolve nodesAndOwners = .ok S ∧
      "Node" ∈ nodesAndOwners.map Table.name ∧
      payload = .object [
        ("children", .array [.object [("label", .string "a")], .object []]), ("label", .null),
        ("owner_ref", .object [("id", .number (.float ⟨0⟩)), ("root", .null)])] ∧
      S.validate "Node" payload = .ok errors ∧
      errors = [⟨[.key "label"], .invalidType "string" "null"⟩,
        ⟨[.key "children", .index 1, .key "label"], .missing⟩,
        ⟨[.key "owner_ref", .key "id"], .invalidType "integer" "number"⟩] ∧
      ∀ path reason, ⟨path, reason⟩ ∈ errors ↔
        Violation nodesAndOwners "Node" payload path reason := by
  obtain ⟨errors, herrors, hviolations⟩ := @mem_validate_iff nodesAndOwners _ "Node" rfl
    (by decide) (.object [
      ("children", .array [.object [("label", .string "a")], .object []]), ("label", .null),
      ("owner_ref", .object [("id", .number (.float ⟨0⟩)), ("root", .null)])])
  exact ⟨_, _, errors, rfl, by decide, rfl, herrors, Except.ok.inj (herrors.symm.trans rfl),
    hviolations⟩

end RecordSchema
