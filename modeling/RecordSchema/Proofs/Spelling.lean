/-
# What validation refuses and decoding does not

A record can also be read from an array, and a literal from an object with one key; a table
allows neither.  A payload in which no value along the tables is spelled so is plain
(`Schemas.Plain`).

These spellings are all that a table adds to its codec: what is read from a payload has no
errors just when the payload is plain (`Codec.Fits.check_eq_nil_iff_plain`).  In
`construct_of_plain` this is said of the record types of a test read.
-/
import RecordSchema.Proofs.RoundTrip

namespace RecordSchema

/-! ## Plain payloads -/

namespace Schemas

/-- No array stands for a record and no object for a literal. -/
structure Plain (S : Schemas) (kind : Kind (Fin S.size)) (v : Json) : Prop where
  records : ∀ p i items, ¬ S.Located kind v p (.record i) (.array items)
  literals : ∀ p literals ms, ¬ S.Located kind v p (.oneOf literals) (.object ms)

variable {S : Schemas} {kind : Kind (Fin S.size)} {v : Json}

lemma Plain.of_item {item : Kind (Fin S.size)} {items : List Json}
    (h : S.Plain (.array item) (.array items)) (hv : v ∈ items) : S.Plain item v := by
  obtain ⟨n, hn⟩ := List.getElem?_of_mem hv
  exact ⟨fun _ i ws hp => h.records _ i ws (.item hn hp),
    fun _ ls ms hp => h.literals _ ls ms (.item hn hp)⟩

lemma Plain.of_field {i : Fin S.size} {ms : Members} {f : Field (Fin S.size)}
    (h : S.Plain (.record i) (.object ms)) (hf : f ∈ (S.table i).fields)
    (hv : f.held? ms = some v) : S.Plain f.kind v :=
  ⟨fun _ i ws hp => h.records _ i ws (.member hf hv hp),
    fun _ ls ms hp => h.literals _ ls ms (.member hf hv hp)⟩

/-- Where the descent along a payload without errors leads, there are no errors. -/
lemma Located.check_eq_nil {kind' : Kind (Fin S.size)} {p : Path} {w : Json}
    (h : S.Located kind v p kind' w) (hcheck : S.check kind v = []) : S.check kind' w = [] := by
  induction h with
  | here kind v => exact hcheck
  | member field held inside ih => exact ih ((check_record_eq_nil_iff.1 hcheck).2 _ field _ held)
  | item found inside ih =>
    exact ih (check_array_eq_nil_iff.1 hcheck _ (List.mem_of_getElem? found))

/-- A payload without errors is plain. -/
theorem plain_of_check (h : S.check kind v = []) : S.Plain kind v where
  records p i items hp := by
    obtain ⟨ms, hms, -⟩ := exists_object_of_check (hp.check_eq_nil h)
    cases hms
  literals p ls ms hp := by
    obtain ⟨s, -, hs⟩ := check_oneOf_eq_nil_iff.1 (hp.check_eq_nil h)
    cases hs

end Schemas

/-! ## Reading plain payloads -/

namespace Codec.Fits

variable {S : Schemas} {α : Type} {kind : Kind (Fin S.size)} {c : Codec α}

/-- A plain payload that is read has no errors. -/
theorem check_of_plain (h : Fits S kind c) : ∀ {v : Json} {a : α},
    S.Plain kind v → c.read v = .ok a → S.check kind v = [] := by
  induction h with
  | text =>
    intro v s _ hread
    cases v with
    | string s => exact Schemas.check_string_eq_nil_iff.2 ⟨s, rfl⟩
    | _ => cases hread
  | flag =>
    intro v b _ hread
    cases v with
    | boolean b => exact Schemas.check_boolean_eq_nil_iff.2 ⟨b, rfl⟩
    | _ => cases hread
  | word =>
    intro v w _ hread
    cases v with
    | number n =>
      cases n with
      | integer n => exact Schemas.check_integer_eq_nil_iff.2 ⟨n, rfl⟩
      | float x => cases hread
    | _ => cases hread
  | document =>
    intro v ms _ hread
    cases v with
    | object ms => exact Schemas.check_object_eq_nil_iff.2 ⟨ms, rfl⟩
    | _ => cases hread
  | @list α kind c item ih =>
    intro v xs hplain hread
    cases v with
    | array items =>
      refine Schemas.check_array_eq_nil_iff.2 fun w hw => ?_
      obtain ⟨a, ha⟩ := exists_read_of_mem hread hw
      exact ih (hplain.of_item hw) ha
    | _ => cases hread
  | @literals α ls found =>
    intro v a hplain hread
    cases v with
    | string s =>
      obtain rfl := Literals.literal_of_lookup hread
      have hmem : a ∈ ls.values := List.mem_of_find?_eq_some (found a)
      exact Schemas.check_oneOf_eq_nil_iff.2 ⟨ls.literal a, List.mem_map.2 ⟨a, hmem, rfl⟩, rfl⟩
    | object ms => exact absurd (.here _ _) (hplain.literals [] ls.all ms)
    | _ => cases hread
  | @record α τ i layout build parts value distinct fields values build_parts parts_build ih =>
    intro v r hplain hread
    cases v with
    | object ms =>
      obtain ⟨-, -, hreadable, -⟩ := fields.ofMembers_eq_ok distinct (eq_ok_of_mapError hread)
      refine Schemas.check_record_eq_nil_iff.2 ⟨fun f hf hrequired => ?_, fun f hf w hw => ?_⟩
      · -- A field that is read without a value need not be there.
        obtain ⟨written, hwritten⟩ := hreadable f hf
        rw [Members.contains, ← Field.held?_of_required hrequired]
        generalize f.held? ms = held at hwritten
        cases hwritten with
        | nothing need => simp [hrequired] at need
        | value codec read => rfl
      · obtain ⟨β, d, b, hd, hb⟩ := (hreadable f hf).legible w hw
        exact ih hd (hplain.of_field hf hw) hb
    | array items => exact absurd (.here _ _) (hplain.records [] i items)
    | _ => cases hread

/-- Of what is read, validation refuses just the payloads that are not plain. -/
theorem check_eq_nil_iff_plain (h : Fits S kind c) {v : Json} {a : α} (hread : c.read v = .ok a) :
    S.check kind v = [] ↔ S.Plain kind v :=
  ⟨Schemas.plain_of_check, fun hplain => h.check_of_plain hplain hread⟩

end Codec.Fits

/-- A plain payload that decodes as a record of a test read has no errors, and the record is
constructed from it. -/
theorem construct_of_plain (m : Model) {v : Json} {r : m.Carrier}
    (plain : Model.schemas.Plain (.record m.position) v) (decoded : m.record.read v = .ok r) :
    Model.schemas.validate m.name v = .ok [] ∧
      Model.schemas.construct m.record v = .ok (.ok r) := by
  have hcheck := m.fits_position.check_of_plain plain decoded
  refine ⟨?_, (Schemas.construct_eq_ok_iff m.nameOf_position).2 ⟨hcheck, decoded⟩⟩
  rw [Schemas.validate_eq m.nameOf_position, Schemas.checkRecord_eq_nil_iff.2 hcheck]

/-- A page with a request, a `null` and a key of its own. -/
theorem construct_of_plain_page :
    Model.schemas.validate Model.pageRecord.name
      (.object [("id", .boolean true), ("records", .array []),
        ("request", .object [("http_method", .string "GET"), ("url", .string "/")]),
        ("response", .null)]) = .ok [] ∧
    Model.schemas.construct Model.pageRecord.record
      (.object [("id", .boolean true), ("records", .array []),
        ("request", .object [("http_method", .string "GET"), ("url", .string "/")]),
        ("response", .null)]) = .ok (.ok ⟨[], some ⟨"/", .get, none, none, none⟩, none⟩) :=
  construct_of_plain .pageRecord (Schemas.plain_of_check rfl) rfl

end RecordSchema
