/-
# What a value without errors looks like

The errors of a record are those of its missing keys followed by those of its fields
(`check_record`), and the errors of an array are those of its items (`check_array`).  A value
conforms to a kind when it has no errors; `check_record_eq_nil_iff` and
`check_array_eq_nil_iff` say so without the errors, and the lemmas on the other kinds say
what such a value is.
-/
import RecordSchema.Schemas.Validate
import RecordSchema.Proofs.Location

namespace RecordSchema

namespace Schemas

variable {S : Schemas} {i : Fin S.size} {ms : Members} {v : Json}

/-! ## The errors of records and arrays -/

/-- The errors of the value that an object holds for a field. -/
def checkField (S : Schemas) (f : Field (Fin S.size)) (ms : Members) : List ValidationError :=
  match f.held? ms with
  | some v => (S.check f.kind v).map (.under (.key f.wire))
  | none => []

theorem check_record (S : Schemas) (i : Fin S.size) (ms : Members) :
    S.check (.record i) (.object ms) =
      S.missingFields (S.table i).fields ms ++
        (S.table i).fields.flatMap fun f => S.checkField f ms := by
  rw [check]
  congr 2
  funext f
  unfold checkField
  cases hheld : f.held? ms with
  | none => rfl
  | some v => simp [checkMember_eq, Field.get?_of_held? hheld]

theorem checkItems_eq (S : Schemas) (kind : Kind (Fin S.size)) (index : Nat) (items : List Json) :
    S.checkItems kind index items =
      (items.zipIdx index).flatMap fun m => (S.check kind m.1).map (.under (.index m.2)) := by
  induction items generalizing index with
  | nil => rw [checkItems]; rfl
  | cons v rest ih => rw [checkItems, ih, List.zipIdx_cons, List.flatMap_cons]

theorem check_array (S : Schemas) (item : Kind (Fin S.size)) (items : List Json) :
    S.check (.array item) (.array items) =
      items.zipIdx.flatMap fun m => (S.check item m.1).map (.under (.index m.2)) := by
  rw [check, checkItems_eq]

/-- A value that is not looked into is one of some literals, or only its type is checked. -/
lemma check_of_flat {kind : Kind (Fin S.size)} (hflat : kind.opens v = false) :
    (∃ literals s, kind = .oneOf literals ∧ v = .string s ∧
      S.check kind v = checkLiteral literals s) ∨
    (∀ literals s, kind = .oneOf literals → v ≠ .string s) ∧
      S.check kind v = S.checkType kind v := by
  by_cases hliteral : ∃ literals s, kind = .oneOf literals ∧ v = .string s
  · obtain ⟨literals, s, rfl, rfl⟩ := hliteral
    exact .inl ⟨literals, s, rfl, rfl, by rw [check]⟩
  · refine .inr ⟨fun literals s hkind hv => hliteral ⟨literals, s, hkind, hv⟩, ?_⟩
    cases kind <;> cases v <;> simp_all [check, Kind.opens]

/-- A value that is not looked into has one error at most, at its own place. -/
lemma check_eq_nil_or_singleton {kind : Kind (Fin S.size)} (hflat : kind.opens v = false) :
    S.check kind v = [] ∨ ∃ reason, S.check kind v = [⟨Path.root, reason⟩] := by
  rcases check_of_flat hflat with ⟨literals, s, -, -, hcheck⟩ | ⟨-, hcheck⟩
  · rw [hcheck, checkLiteral]
    split
    · exact .inl rfl
    · exact .inr ⟨_, rfl⟩
  · rw [hcheck, checkType]
    split
    · exact .inl rfl
    · exact .inr ⟨_, rfl⟩

/-! ## Conforming values -/

lemma missingFields_eq_nil_iff {fields : List (Field (Fin S.size))} :
    S.missingFields fields ms = [] ↔
      ∀ f ∈ fields, f.required = true → Members.contains f.wire ms = true := by
  simp [missingFields]

lemma checkField_eq_nil_iff {f : Field (Fin S.size)} :
    S.checkField f ms = [] ↔ ∀ v, f.held? ms = some v → S.check f.kind v = [] := by
  unfold checkField
  cases f.held? ms <;> simp

theorem check_record_eq_nil_iff :
    S.check (.record i) (.object ms) = [] ↔
      (∀ f ∈ (S.table i).fields, f.required = true → Members.contains f.wire ms = true) ∧
        ∀ f ∈ (S.table i).fields, ∀ v, f.held? ms = some v → S.check f.kind v = [] := by
  rw [check_record, List.append_eq_nil_iff, missingFields_eq_nil_iff, List.flatMap_eq_nil_iff]
  simp only [checkField_eq_nil_iff]

theorem check_array_eq_nil_iff {item : Kind (Fin S.size)} {items : List Json} :
    S.check (.array item) (.array items) = [] ↔ ∀ v ∈ items, S.check item v = [] := by
  rw [check_array, List.flatMap_eq_nil_iff]
  constructor
  · intro h v hv
    obtain ⟨n, hn⟩ := List.getElem?_of_mem hv
    exact List.map_eq_nil_iff.1 (h (v, n) (List.mk_mem_zipIdx_iff_getElem?.2 hn))
  · intro h m hm
    exact List.map_eq_nil_iff.2 (h m.1 (List.fst_mem_of_mem_zipIdx hm))

lemma checkType_eq_nil_iff {kind : Kind (Fin S.size)} :
    S.checkType kind v = [] ↔ kind.admits v = true := by
  simp [checkType]

lemma checkLiteral_eq_nil_iff {literals : List String} {s : String} :
    checkLiteral literals s = [] ↔ s ∈ literals := by
  simp [checkLiteral]

lemma check_string_eq_nil_iff : S.check .string v = [] ↔ ∃ s, v = .string s := by
  cases v <;> simp [check, checkType_eq_nil_iff, Kind.admits]

lemma check_boolean_eq_nil_iff : S.check .boolean v = [] ↔ ∃ b, v = .boolean b := by
  cases v <;> simp [check, checkType_eq_nil_iff, Kind.admits]

lemma check_integer_eq_nil_iff : S.check .integer v = [] ↔ ∃ n, v = .number (.integer n) := by
  cases v with
  | number n => cases n <;> simp [check, checkType_eq_nil_iff, Kind.admits, Number.isInteger]
  | _ => simp [check, checkType_eq_nil_iff, Kind.admits]

lemma check_object_eq_nil_iff : S.check .object v = [] ↔ ∃ ms, v = .object ms := by
  cases v <;> simp [check, checkType_eq_nil_iff, Kind.admits]

lemma check_oneOf_eq_nil_iff {literals : List String} :
    S.check (.oneOf literals) v = [] ↔ ∃ s ∈ literals, v = .string s := by
  cases v <;> simp [check, checkType_eq_nil_iff, checkLiteral_eq_nil_iff, Kind.admits]

lemma exists_array_of_check {item : Kind (Fin S.size)} (h : S.check (.array item) v = []) :
    ∃ items, v = .array items ∧ ∀ w ∈ items, S.check item w = [] := by
  cases v with
  | array items => exact ⟨items, rfl, check_array_eq_nil_iff.1 h⟩
  | _ => simp [check, checkType_eq_nil_iff, Kind.admits] at h

lemma exists_object_of_check (h : S.check (.record i) v = []) :
    ∃ ms, v = .object ms ∧
      (∀ f ∈ (S.table i).fields, f.required = true → Members.contains f.wire ms = true) ∧
      ∀ f ∈ (S.table i).fields, ∀ w, f.held? ms = some w → S.check f.kind w = [] := by
  cases v with
  | object ms => exact ⟨ms, rfl, check_record_eq_nil_iff.1 h⟩
  | _ => simp [check, checkType_eq_nil_iff, Kind.admits] at h

/-! ## Payloads -/

lemma lookup_eq_ok {name : String} (h : S.nameOf i = name) : S.lookup name = .ok i := by
  rw [lookup, S.find?_eq_some_iff.2 h]

theorem validate_eq {name : String} (h : S.nameOf i = name) (payload : Json) :
    S.validate name payload = .ok (S.checkRecord i payload) := by
  rw [validate, lookup_eq_ok h]
  rfl

/-- At the root another type is reported in other words, but the same payloads conform. -/
theorem checkRecord_eq_nil_iff : S.checkRecord i v = [] ↔ S.check (.record i) v = [] := by
  cases v <;> simp [checkRecord, check, checkType_eq_nil_iff, Kind.admits]

end Schemas

end RecordSchema
