/-
# A decoding failure is about a value of the payload

Decoding is stricter than a table may be, and stops at the first thing it cannot make sense of.
Its error carries a path and says what is wrong there.  `DecodeFailure.About` says which values
a failure speaks the truth about, and `DecodeError.PointsInto` that the path leads to such a
value.  All codecs report errors of this sort (`Codec.Reports`): a path is begun at the value
that is complained about, and each step that is put in front of it is one that was taken.

The tables of a set have no part in this, so `construct_undecodable` holds in every set that
declares the name of a record type, whatever it says of the fields.
-/
import RecordSchema.Proofs.Fitting
import RecordSchema.Proofs.Violation
import RecordSchema.Record
import RecordSchema.TestRead.Catalogue

namespace RecordSchema

/-! ## Failures and the values they are about -/

/-- A decoder that is ready for something is content with the type of a value. -/
def Expected.met : Expected → Json → Bool
  | .string, .string _ => true
  | .boolean, .boolean _ => true
  | .sequence, .array _ => true
  | .map, .object _ => true
  | .word, .number (.integer _) => true
  | .unit, .null => true
  | .literal, .string _ => true
  | .literal, .object _ => true
  | .record _, .object _ => true
  | .record _, .array _ => true
  | _, _ => false

/-- What a failure says is true of a value. -/
inductive DecodeFailure.About : DecodeFailure → Json → Prop
  | invalidType {v : Json} {expected : Expected} (unmet : expected.met v = false) :
      About (.invalidType (.ofJson v) expected) v
  | outOfRange {n : Int} (outside : ¬ (0 ≤ n ∧ n < 65536)) :
      About (.outOfRange n) (.number (.integer n))
  | notSingleKey {ms : Members} (other : ms.length ≠ 1) : About .notSingleKey (.object ms)
  | missingField {wire : String} {ms : Members} (absent : Members.get? wire ms = none) :
      About (.missingField wire) (.object ms)
  | tooShort {position fields : Nat} {record : String} {items : List Json}
      (ended : items.length ≤ position) :
      About (.tooShort position record fields) (.array items)
  | tooLong (items : List Json) : About (.tooLong items.length) (.array items)
  /-- A literal may be written as a string. -/
  | unknownString {s : String} {literals : List String} (other : s ∉ literals) :
      About (.unknownLiteral s literals) (.string s)
  /-- It may also be written as the only key of an object. -/
  | unknownKey {s : String} {v : Json} {literals : List String} (other : s ∉ literals) :
      About (.unknownLiteral s literals) (.object [(s, v)])

namespace DecodeError

/-- The path of an error leads to a value that the failure is about. -/
def PointsInto (e : DecodeError) (v : Json) : Prop :=
  ∃ w, v.at? e.path = some w ∧ e.failure.About w

variable {e : DecodeError} {v : Json}

lemma PointsInto.here {failure : DecodeFailure} (h : failure.About v) :
    (DecodeError.here failure).PointsInto v :=
  ⟨v, rfl, h⟩

lemma PointsInto.under_key (h : e.PointsInto v) {key : String} {ms : Members}
    (hv : Members.get? key ms = some v) : (e.under (.key key)).PointsInto (.object ms) := by
  obtain ⟨w, hw, habout⟩ := h
  exact ⟨w, by simp [Json.at?, hv, hw], habout⟩

lemma PointsInto.under_index (h : e.PointsInto v) {n : Nat} {items : List Json}
    (hv : items[n]? = some v) : (e.under (.index n)).PointsInto (.array items) := by
  obtain ⟨w, hw, habout⟩ := h
  exact ⟨w, by simp [Json.at?, hv, hw], habout⟩

end DecodeError

/-! ## Codecs -/

/-- Whenever a value is not read, the error points into it. -/
def Codec.Reports {α : Type} (c : Codec α) : Prop :=
  ∀ v e, c.read v = .error e → e.PointsInto v

namespace Codec

variable {α : Type} {c : Codec α} {v : Json} {e : DecodeError}

lemma pointsInto_wrongType {expected : Expected} (unmet : expected.met v = false) :
    (wrongType v expected).PointsInto v :=
  .here (.invalidType unmet)

namespace Reports

lemma text : Codec.text.Reports := by
  intro v e herror
  cases v with
  | string s => cases herror
  | _ => exact Except.error.inj herror ▸ pointsInto_wrongType rfl

lemma flag : Codec.flag.Reports := by
  intro v e herror
  cases v with
  | boolean b => cases herror
  | _ => exact Except.error.inj herror ▸ pointsInto_wrongType rfl

lemma word : Codec.word.Reports := by
  intro v e herror
  cases v with
  | number n =>
    cases n with
    | float x => exact Except.error.inj herror ▸ pointsInto_wrongType rfl
    | integer n =>
      simp only [Codec.word, readWord] at herror
      split at herror
      · cases herror
      · rename_i houtside
        exact Except.error.inj herror ▸ .here (.outOfRange houtside)
  | _ => exact Except.error.inj herror ▸ pointsInto_wrongType rfl

lemma document : Codec.document.Reports := by
  intro v e herror
  cases v with
  | object ms => cases herror
  | _ => exact Except.error.inj herror ▸ pointsInto_wrongType rfl

lemma list (h : c.Reports) : (Codec.list c).Reports := by
  intro v e herror
  cases v with
  | array items =>
    obtain ⟨n, w, e', hw, hread, rfl, -⟩ := exists_of_readItems_error herror
    rw [Nat.zero_add]
    exact (h w e' hread).under_index hw
  | _ => exact Except.error.inj herror ▸ pointsInto_wrongType rfl

lemma eq_unknownLiteral_of_lookup {ls : Literals α} {s : String} (h : ls.lookup s = .error e) :
    s ∉ ls.all ∧ e = .here (.unknownLiteral s ls.all) := by
  rw [Literals.lookup] at h
  split at h
  · cases h
  · rename_i hfind
    refine ⟨fun hs => ?_, (Except.error.inj h).symm⟩
    obtain ⟨a, ha, rfl⟩ := List.mem_map.1 hs
    simpa using List.find?_eq_none.1 hfind a ha

lemma literals (ls : Literals α) : ls.codec.Reports := by
  intro v e herror
  match v with
  | .string s =>
    obtain ⟨hs, rfl⟩ := eq_unknownLiteral_of_lookup herror
    exact .here (.unknownString hs)
  | .object [(k, w)] =>
    rcases eq_error_of_bind herror with hlookup | ⟨a, -, hunit⟩
    · obtain ⟨hk, rfl⟩ := eq_unknownLiteral_of_lookup hlookup
      exact .here (.unknownKey hk)
    · -- The key is a literal, but it does not stand for `null`.
      have hw : Members.get? k [(k, w)] = some w := by simp [Members.get?_cons]
      cases w with
      | null => cases hunit
      | _ => exact Except.error.inj hunit ▸ (pointsInto_wrongType rfl).under_key hw
  | .object [] => exact Except.error.inj herror ▸ .here (.notSingleKey (by simp))
  | .object (m :: n :: rest) =>
    exact Except.error.inj herror ▸ .here (.notSingleKey (by simp))
  | .null | .boolean _ | .number _ | .array _ =>
    exact Except.error.inj herror ▸ pointsInto_wrongType rfl

end Reports

end Codec

/-! ## Groups of fields -/

/-- Of two shortfalls one is reported. -/
lemma Shortfall.first_eq_or (s s' : Shortfall) : s.first s' = s ∨ s.first s' = s' := by
  unfold first
  split
  · split
    · exact .inr rfl
    · exact .inl rfl
  · exact .inr rfl
  · exact .inl rfl

/-- Two readings that are put together fall short as one of them does. -/
lemma Fields.eq_error_of_both {α β : Type} {x : Except Shortfall (α → β)}
    {y : Except Shortfall α} {s : Shortfall} (h : Fields.both x y = .error s) :
    x = .error s ∨ y = .error s := by
  unfold both at h
  split at h
  · cases h
  · exact .inr (congrArg Except.error (Except.error.inj h))
  · exact .inl (congrArg Except.error (Except.error.inj h))
  · rename_i s' s''
    rw [← Except.error.inj h]
    exact (s'.first_eq_or s'').imp (congrArg Except.error ·.symm) (congrArg Except.error ·.symm)

/-- Whenever a group of fields is not read, from an object or from an array, the error points
into it; an array may also end too early. -/
structure Fields.Report {ρ α : Type} (x : Fields ρ α) : Prop where
  ofMembers : ∀ ms s, x.ofMembers ms = .error s → s.toError.PointsInto (.object ms)
  ofItems : ∀ short position items e, x.ofItems short position items = .error e →
    e.PointsInto (.array items) ∨ ∃ n, items.length ≤ n ∧ e = short n

namespace Fields.Report

variable {ρ α β : Type} {name wire : String} {c : Codec α}

section Values

variable {read : Json → Except DecodeError β} {v : Json}

/-- The error of the value under a key points into the object. -/
lemma pointsInto_object {ms : Members} {s : Shortfall}
    (h : ∀ e, read v = .error e → e.PointsInto v) (hv : Members.get? wire ms = some v)
    (herror : (read v).mapError (.unreadable wire) = .error s) :
    s.toError.PointsInto (.object ms) := by
  obtain ⟨e, hread, rfl⟩ := eq_error_of_mapError herror
  exact (h e hread).under_key hv

/-- The error of an item points into the array. -/
lemma pointsInto_array {items : List Json} {n : Nat} {e : DecodeError}
    (h : ∀ e, read v = .error e → e.PointsInto v) (hv : items[n]? = some v)
    (herror : (read v).mapError (.under (.index n)) = .error e) :
    e.PointsInto (.array items) := by
  obtain ⟨e, hread, rfl⟩ := eq_error_of_mapError herror
  exact (h e hread).under_index hv

end Values

lemma required (h : c.Reports) (get : ρ → α) : (Fields.required name wire c get).Report where
  ofMembers ms s herror := by
    simp only [Fields.required] at herror
    split at herror
    · rename_i habsent
      exact Except.error.inj herror ▸ .here (.missingField habsent)
    · rename_i v hv
      exact pointsInto_object (h v) hv herror
  ofItems short position items e herror := by
    simp only [Fields.required] at herror
    split at herror
    · rename_i hended
      exact .inr ⟨position, List.getElem?_eq_none_iff.1 hended, (Except.error.inj herror).symm⟩
    · rename_i v hv
      exact .inl (pointsInto_array (h v) hv herror)

/-- Where `null` is as good as no value, the errors are still those of the codec. -/
lemma pointsInto_of_readNullable (h : c.Reports) (v : Json) (e : DecodeError)
    (herror : readNullable c.read v = .error e) : e.PointsInto v := by
  unfold readNullable at herror
  split at herror
  · cases herror
  · exact h v e (eq_error_of_map herror)

lemma optional (h : c.Reports) (get : ρ → Option α) :
    (Fields.optional name wire c get).Report where
  ofMembers ms s herror := by
    simp only [Fields.optional] at herror
    split at herror
    · cases herror
    · rename_i v hv
      exact pointsInto_object (pointsInto_of_readNullable h v) hv herror
  ofItems short position items e herror := by
    simp only [Fields.optional] at herror
    split at herror
    · cases herror
    · rename_i v hv
      exact .inl (pointsInto_array (pointsInto_of_readNullable h v) hv herror)

lemma map {x : Fields ρ α} (h : x.Report) (f : α → β) : (f <$> x).Report where
  ofMembers ms s herror := h.ofMembers ms s (eq_error_of_map herror)
  ofItems short position items e herror :=
    h.ofItems short position items e (eq_error_of_map herror)

lemma seq {x : Fields ρ (α → β)} {y : Fields ρ α} (h : x.Report) (h' : y.Report) :
    (x <*> y).Report where
  ofMembers ms s herror := by
    rcases Fields.eq_error_of_both herror with hx | hy
    · exact h.ofMembers ms s hx
    · exact h'.ofMembers ms s hy
  ofItems short position items e herror := by
    rcases eq_error_of_bind herror with hx | ⟨f, -, hmore⟩
    · exact h.ofItems short position items e hx
    · rcases eq_error_of_bind hmore with hy | ⟨a, -, hdone⟩
      · exact h'.ofItems short _ items e hy
      · cases hdone

end Fields.Report

/-- A layout reports what its fields report, and of arrays also that they are too short or too
long. -/
lemma Codec.Reports.record {α : Type} {layout : Layout α} (h : layout.fields.Report) :
    layout.codec.Reports := by
  intro v e herror
  cases v with
  | object ms =>
    obtain ⟨s, hs, rfl⟩ := eq_error_of_mapError herror
    exact h.ofMembers ms s hs
  | array items =>
    rcases eq_error_of_bind herror with hfields | ⟨a, -, hlength⟩
    · rcases h.ofItems layout.short 0 items e hfields with hinside | ⟨n, hended, rfl⟩
      · exact hinside
      · exact .here (.tooShort hended)
    · split at hlength
      · cases hlength
      · exact Except.error.inj hlength ▸ .here (.tooLong items)
  | _ => exact Except.error.inj herror ▸ pointsInto_wrongType rfl

/-! ## The record types of a test read -/

namespace Model

open Codec.Reports Fields.Report

lemma reports_sliceDescriptor : SliceDescriptor.layout.codec.Reports :=
  .record (optional text _ |>.map _
    |>.seq (optional text _))

lemma reports_httpRequest : HttpRequest.layout.codec.Reports :=
  .record (required text _ |>.map _
    |>.seq (required (literals _) _)
    |>.seq (optional document _)
    |>.seq (optional document _)
    |>.seq (optional document _))

lemma reports_httpResponse : HttpResponse.layout.codec.Reports :=
  .record (required word _ |>.map _
    |>.seq (optional text _)
    |>.seq (optional document _))

lemma reports_pageRecord : PageRecord.layout.codec.Reports :=
  .record (required (list document) _ |>.map _
    |>.seq (optional reports_httpRequest _)
    |>.seq (optional reports_httpResponse _))

lemma reports_sliceRecord : SliceRecord.layout.codec.Reports :=
  .record (required (list reports_pageRecord) _ |>.map _
    |>.seq (optional reports_sliceDescriptor _)
    |>.seq (optional document _))

lemma reports_logMessage : LogMessage.layout.codec.Reports :=
  .record (required text _ |>.map _
    |>.seq (required (literals _) _))

lemma reports_streamRead : StreamRead.layout.codec.Reports :=
  .record (required (list reports_logMessage) _ |>.map _
    |>.seq (required (list reports_sliceRecord) _)
    |>.seq (required flag _)
    |>.seq (optional document _))

/-- Every record type reports errors that point into the payload. -/
theorem reports (m : Model) : m.layout.codec.Reports := by
  cases m with
  | streamRead => exact reports_streamRead
  | logMessage => exact reports_logMessage
  | sliceRecord => exact reports_sliceRecord
  | pageRecord => exact reports_pageRecord
  | httpRequest => exact reports_httpRequest
  | httpResponse => exact reports_httpResponse
  | sliceDescriptor => exact reports_sliceDescriptor

end Model

/-! ## Errors of payloads -/

/-- No error that validation reports is one of decoding. -/
lemma Violation.ne_undecodable {declared : List Declaration} {record : String} {payload : Json}
    {p : Path} {r : Reason} (h : Violation declared record payload p r) (detail : String) :
    r ≠ .undecodable detail := by
  cases h <;> simp

/-- In every set that has a record of this name, whatever its table, a record of a test read is
constructed or refused.  If it is refused because the payload cannot be decoded, validation has
nothing against the payload, and the error points to a value inside it that its text is about. -/
theorem construct_undecodable (m : Model) {declared : List Declaration} {S : Schemas}
    (resolved : resolve declared = .ok S) (known : m.name ∈ declared.map Table.name)
    (payload : Json) :
    ∃ result, S.construct m.record payload = .ok result ∧
      ∀ path detail, result = .error ⟨path, .undecodable detail⟩ →
        S.validate m.name payload = .ok [] ∧
        ∃ w failure, payload.at? path = some w ∧ DecodeFailure.About failure w ∧
          detail = failure.message := by
  obtain rfl := declarations_of_resolve resolved
  obtain ⟨i, hi⟩ := Schemas.exists_nameOf known
  have hvalidate : S.validate m.name payload = .ok (S.checkRecord i payload) :=
    Schemas.validate_eq hi payload
  have hconstruct : S.construct m.record payload = (S.validate m.name payload).map _ := rfl
  rw [hvalidate] at hconstruct ⊢
  refine ⟨_, hconstruct, fun path detail hresult => ?_⟩
  cases hcheck : S.checkRecord i payload with
  | cons e rest =>
    rw [hcheck] at hresult
    obtain rfl := Except.error.inj hresult
    have hviolation := Schemas.mem_checkRecord_iff.1 (hcheck ▸ List.mem_cons_self)
    exact absurd rfl (hviolation.ne_undecodable detail)
  | nil =>
    rw [hcheck] at hresult
    obtain ⟨e, hread, he⟩ := eq_error_of_mapError hresult
    obtain ⟨hpath, hreason⟩ := ValidationError.mk.inj he
    obtain ⟨w, hw, habout⟩ := m.reports payload e hread
    exact ⟨rfl, w, e.failure, hpath ▸ hw, habout, (Reason.undecodable.inj hreason).symm⟩

/-- A page that has a table of its own, which leaves it open what a request is.  The request is
spelled as an array and its method as an object, with a number in it. -/
theorem construct_undecodable_page :
    ∃ S payload detail, resolve [⟨"PageRecord", [⟨"request", "request", .any, true⟩]⟩] = .ok S ∧
      Model.pageRecord.name ∈
        [(⟨"PageRecord", [⟨"request", "request", .any, true⟩]⟩ : Declaration)].map Table.name ∧
      payload = Json.object [("records", .array []),
        ("request", .array [.string "/", .object [("GET", .number (.integer 1))]])] ∧
      detail = "invalid type: integer `1`, expected unit" ∧
      S.construct Model.pageRecord.record payload = .ok (.error
        ⟨[.key "request", .index 1, .key "GET"], .undecodable detail⟩) ∧
      S.validate Model.pageRecord.name payload = .ok [] ∧
      ∃ w failure, payload.at? [.key "request", .index 1, .key "GET"] = some w ∧
        DecodeFailure.About failure w ∧ detail = failure.message := by
  have known : Model.pageRecord.name ∈
      [(⟨"PageRecord", [⟨"request", "request", .any, true⟩]⟩ : Declaration)].map Table.name := by
    decide
  obtain ⟨result, hconstruct, hsite⟩ := construct_undecodable .pageRecord rfl known
    (.object [("records", .array []),
      ("request", .array [.string "/", .object [("GET", .number (.integer 1))]])])
  have hresult : result = .error ⟨[.key "request", .index 1, .key "GET"],
      .undecodable "invalid type: integer `1`, expected unit"⟩ :=
    Except.ok.inj (hconstruct.symm.trans rfl)
  obtain ⟨hvalid, hvalue⟩ := hsite _ _ hresult
  exact ⟨_, _, _, rfl, known, rfl, rfl, hresult ▸ hconstruct, hvalid, hvalue⟩

end RecordSchema
