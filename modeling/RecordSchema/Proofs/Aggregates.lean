/-
# What the totals of a stream read say about its document

A stream read has its pages in slices.  Its own list of pages runs through all slices, and its
count of records through all pages.  Both can be read off the document that it was constructed
from: the pages are the elements of `pages` in the first slice, then those in the second, and so
on, and the records are counted by the lengths of the arrays `records` in these elements.

`Model.Accepted` says that a value is constructed as a record.  It passes from a record to the
records in an array under one of its keys (`Model.Accepted.items`), and so from the document to
its slices and from there to its pages.
-/
import RecordSchema.Proofs.RoundTrip
import Mathlib.Data.List.Forall2

namespace RecordSchema

/-! ## Readings of fields -/

namespace Fields

variable {ρ α : Type} {name wire : String} {c : Codec α} {ms : Members}

lemma eq_ok_of_required {get : ρ → α} {a : α}
    (h : (required name wire c get).ofMembers ms = .ok a) :
    ∃ v, Members.get? wire ms = some v ∧ c.read v = .ok a := by
  simp only [required] at h
  split at h
  · cases h
  · rename_i v hv
    exact ⟨v, hv, eq_ok_of_mapError h⟩

/-- An optional field has a value if the object has one that is not `null`. -/
lemma isSome_of_optional {get : ρ → Option α} {a : Option α}
    (h : (optional name wire c get).ofMembers ms = .ok a) :
    a.isSome ↔ ∃ v, Members.get? wire ms = some v ∧ v ≠ .null := by
  simp only [optional] at h
  split at h
  · rename_i habsent
    obtain rfl := Except.ok.inj h
    simp [habsent]
  · rename_i v hv
    replace h := eq_ok_of_mapError h
    unfold readNullable at h
    split at h
    · obtain rfl := Except.ok.inj h
      simp [hv]
    · rename_i hnull
      obtain ⟨b, -, rfl⟩ := eq_ok_of_map h
      exact ⟨fun _ => ⟨v, hv, hnull⟩, fun _ => rfl⟩

end Fields

lemma Json.at?_key (key : String) (ms : Members) :
    (Json.object ms).at? [.key key] = Members.get? key ms := by
  simp [Json.at?]

/-- Opaque objects are read as they are. -/
lemma Codec.eq_object_of_readDocument {v : Json} {ms : Members} (h : readDocument v = .ok ms) :
    v = .object ms := by
  cases v with
  | object ns => rw [Except.ok.inj h]
  | _ => cases h

lemma Codec.eq_array_of_readList {α : Type} {read : Json → Except DecodeError α} {v : Json}
    {xs : List α} (h : readList read v = .ok xs) :
    ∃ items, v = .array items ∧ List.Forall₂ (fun w a => read w = .ok a) items xs := by
  cases v with
  | array items => exact ⟨items, rfl, forall₂_of_readItems h⟩
  | _ => cases h

/-! ## Accepted values -/

namespace Model

/-- A value has no errors as a record and is read as the record. -/
def Accepted (m : Model) (v : Json) (r : m.Carrier) : Prop :=
  schemas.check (.record m.position) v = [] ∧ m.layout.read v = .ok r

namespace Accepted

variable {m n : Model} {v : Json}

lemma exists_object {r : m.Carrier} (h : m.Accepted v r) :
    ∃ ms, v = .object ms ∧ m.layout.fields.ofMembers ms = .ok r := by
  obtain ⟨ms, rfl, -⟩ := Schemas.exists_object_of_check h.1
  exact ⟨ms, rfl, eq_ok_of_mapError h.2⟩

/-- The items of an array under a required key are accepted one by one. -/
lemma items {f : Field String} {ms : Members} {r : m.Carrier} {xs : List n.Carrier}
    (h : m.Accepted (.object ms) r) (hf : f ∈ m.layout.table) (need : f.required = true)
    (hkind : f.kind = .array (.record n.name)) (hv : Members.get? f.wire ms = some v)
    (hread : Codec.readList n.layout.read v = .ok xs) :
    ∃ items, v = .array items ∧ List.Forall₂ n.Accepted items xs := by
  obtain ⟨items, rfl, hitems⟩ := Codec.eq_array_of_readList hread
  obtain ⟨g, hg, rfl⟩ := exists_field hf
  obtain ⟨item, hitem, hname⟩ := Kind.map_eq_array_iff.1 hkind
  obtain ⟨i, rfl, hi⟩ := Kind.map_eq_record_iff.1 hname
  obtain rfl : i = n.position := schemas.nameOf_injective (hi.trans n.nameOf_position.symm)
  -- The array conforms to the kind of the field, and so do its items.
  have hheld : g.held? ms = some (.array items) := (Field.held?_of_required need).trans hv
  have hcheck := (Schemas.check_record_eq_nil_iff.1 h.1).2 g hg _ hheld
  rw [hitem, Schemas.check_array_eq_nil_iff] at hcheck
  exact ⟨items, rfl, (List.forall₂_and_left _ _).2 ⟨hcheck, hitems⟩⟩

/-- The slices of a stream read are the elements under `slices`. -/
lemma slices {r : StreamRead} (h : streamRead.Accepted v r) :
    ∃ items, v.at? [.key "slices"] = some (.array items) ∧
      List.Forall₂ sliceRecord.Accepted items r.slices := by
  obtain ⟨ms, rfl, hread⟩ := h.exists_object
  obtain ⟨f₃, schema, hread₃, -, hr⟩ := Fields.eq_ok_of_both hread
  obtain ⟨f₂, limit, hread₂, -, rfl⟩ := Fields.eq_ok_of_both hread₃
  obtain ⟨f₁, slices, hread₁, hslices, rfl⟩ := Fields.eq_ok_of_both hread₂
  obtain ⟨logs, -, rfl⟩ := eq_ok_of_map hread₁
  obtain ⟨v, hv, hlist⟩ := Fields.eq_ok_of_required hslices
  obtain ⟨items, rfl, hitems⟩ := h.items (n := sliceRecord) (f := ⟨"slices", "slices", _, true⟩)
    (.tail _ (.head _)) rfl rfl hv hlist
  subst hr
  exact ⟨items, (Json.at?_key _ _).trans hv, hitems⟩

/-- The pages of a slice are the elements under `pages`. -/
lemma pages {s : SliceRecord} (h : sliceRecord.Accepted v s) :
    ∃ items, v.at? [.key "pages"] = some (.array items) ∧
      List.Forall₂ pageRecord.Accepted items s.pages := by
  obtain ⟨ms, rfl, hread⟩ := h.exists_object
  obtain ⟨f₂, state, hread₂, -, hs⟩ := Fields.eq_ok_of_both hread
  obtain ⟨f₁, descriptor, hread₁, -, rfl⟩ := Fields.eq_ok_of_both hread₂
  obtain ⟨pages, hpages, rfl⟩ := eq_ok_of_map hread₁
  obtain ⟨v, hv, hlist⟩ := Fields.eq_ok_of_required hpages
  obtain ⟨items, rfl, hitems⟩ := h.items (n := pageRecord) (f := ⟨"pages", "pages", _, true⟩)
    (.head _) rfl rfl hv hlist
  subst hs
  exact ⟨items, (Json.at?_key _ _).trans hv, hitems⟩

end Accepted

end Model

/-! ## Pages -/

/-- A page holds what an element of a document says: its records as they stand there, and a
request and a response if the element has one that is not `null`. -/
structure PageRecord.ReadFrom (w : Json) (page : PageRecord) : Prop where
  records : w.at? [.key "records"] = some (.array (page.records.map .object))
  request : page.request.isSome ↔ ∃ u, w.at? [.key "request"] = some u ∧ u ≠ .null
  response : page.response.isSome ↔ ∃ u, w.at? [.key "response"] = some u ∧ u ≠ .null

/-- Objects that are read are the items that they were read from. -/
lemma Codec.eq_map_object_of_readDocument {items : List Json} {records : List Members}
    (h : List.Forall₂ (fun v ms => readDocument v = .ok ms) items records) :
    items = records.map .object := by
  induction h with
  | nil => rfl
  | cons hv _ ih => rw [List.map_cons, ← ih, eq_object_of_readDocument hv]

lemma Model.Accepted.readFrom {v : Json} {page : PageRecord}
    (h : Model.pageRecord.Accepted v page) : page.ReadFrom v := by
  obtain ⟨ms, rfl, hread⟩ := h.exists_object
  obtain ⟨f₂, response, hread₂, hresponse, hpage⟩ := Fields.eq_ok_of_both hread
  obtain ⟨f₁, request, hread₁, hrequest, rfl⟩ := Fields.eq_ok_of_both hread₂
  obtain ⟨records, hrecords, rfl⟩ := eq_ok_of_map hread₁
  obtain ⟨w, hw, hlist⟩ := Fields.eq_ok_of_required hrecords
  obtain ⟨items, rfl, hitems⟩ := Codec.eq_array_of_readList hlist
  obtain rfl := Codec.eq_map_object_of_readDocument hitems
  subst hpage
  refine ⟨(Json.at?_key _ _).trans hw, ?_, ?_⟩
  · simpa only [Json.at?_key] using Fields.isSome_of_optional hrequest
  · simpa only [Json.at?_key] using Fields.isSome_of_optional hresponse

/-- The pages of all slices are those of one slice after the other. -/
lemma Model.exists_pages_of_slices {items : List Json} {slices : List SliceRecord}
    (h : List.Forall₂ Model.sliceRecord.Accepted items slices) :
    ∃ pages : List (List Json),
      List.Forall₂ (fun w ps => w.at? [.key "pages"] = some (.array ps)) items pages ∧
      List.Forall₂ Model.pageRecord.Accepted pages.flatten (slices.flatMap SliceRecord.pages) := by
  induction h with
  | nil => exact ⟨[], .nil, .nil⟩
  | cons hslice _ ih =>
    obtain ⟨first, hfirst, hpages⟩ := Model.Accepted.pages hslice
    obtain ⟨later, hlater, hrest⟩ := ih
    exact ⟨first :: later, .cons hfirst hlater, List.rel_append hpages hrest⟩

/-- The pages of a stream read that is constructed are those of its document, in the same order,
and its records are counted by what these pages list. -/
theorem aggregates_of_construct {v : Json} {r : StreamRead}
    (accepted : Model.schemas.construct Model.streamRead.record v = .ok (.ok r)) :
    ∃ (slices : List Json) (pages records : List (List Json)),
      v.at? [.key "slices"] = some (.array slices) ∧
      List.Forall₂ (fun w ps => w.at? [.key "pages"] = some (.array ps)) slices pages ∧
      List.Forall₂ PageRecord.ReadFrom pages.flatten r.pages ∧
      List.Forall₂ (fun w rs => w.at? [.key "records"] = some (.array rs)) pages.flatten records ∧
      r.recordCount = (records.map List.length).foldr (· + ·) 0 := by
  have haccepted : Model.streamRead.Accepted v r :=
    (Schemas.construct_eq_ok_iff Model.streamRead.nameOf_position).1 accepted
  obtain ⟨slices, hslices, hitems⟩ := haccepted.slices
  obtain ⟨pages, hpages, hread⟩ := Model.exists_pages_of_slices hitems
  replace hread : List.Forall₂ PageRecord.ReadFrom pages.flatten r.pages :=
    hread.imp fun _ _ => Model.Accepted.readFrom
  refine ⟨slices, pages, r.pages.map fun p => p.records.map .object, hslices, hpages, hread,
    ?_, ?_⟩
  · exact List.forall₂_map_right_iff.2 (hread.imp fun _ _ h => h.records)
  · simp [StreamRead.recordCount, List.map_map, Function.comp_def]

/-- A slice without pages, then one with two: the first page has two records, a request that is
`null` and a key of its own, and the second has a response. -/
theorem aggregates_of_construct_slices :
    ∃ (v : Json) (r : StreamRead) (slices : List Json) (pages records : List (List Json)),
      v = .object [("logs", .array []),
        ("slices", .array [.object [("pages", .array [])], .object [("pages", .array [
          .object [("id", .string "7"), ("records", .array [.object [], .object [("a", .null)]]),
            ("request", .null)],
          .object [("records", .array []),
            ("response", .object [("status", .number (.integer 200))])]])]]),
        ("test_read_limit_reached", .boolean false)] ∧
      r = ⟨[], [⟨[], none, none⟩, ⟨[⟨[[], [("a", .null)]], none, none⟩,
        ⟨[], none, some ⟨200, none, none⟩⟩], none, none⟩], false, none⟩ ∧
      Model.schemas.construct Model.streamRead.record v = .ok (.ok r) ∧
      v.at? [.key "slices"] = some (.array slices) ∧
      List.Forall₂ (fun w ps => w.at? [.key "pages"] = some (.array ps)) slices pages ∧
      List.Forall₂ PageRecord.ReadFrom pages.flatten r.pages ∧
      List.Forall₂ (fun w rs => w.at? [.key "records"] = some (.array rs)) pages.flatten records ∧
      r.recordCount = (records.map List.length).foldr (· + ·) 0 ∧ r.recordCount = 2 := by
  have accepted : Model.schemas.construct Model.streamRead.record
      (.object [("logs", .array []),
        ("slices", .array [.object [("pages", .array [])], .object [("pages", .array [
          .object [("id", .string "7"), ("records", .array [.object [], .object [("a", .null)]]),
            ("request", .null)],
          .object [("records", .array []),
            ("response", .object [("status", .number (.integer 200))])]])]]),
        ("test_read_limit_reached", .boolean false)]) =
      .ok (.ok ⟨[], [⟨[], none, none⟩, ⟨[⟨[[], [("a", .null)]], none, none⟩,
        ⟨[], none, some ⟨200, none, none⟩⟩], none, none⟩], false, none⟩) := rfl
  obtain ⟨slices, pages, records, hslices, hpages, hread, hrecords, hcount⟩ :=
    aggregates_of_construct accepted
  exact ⟨_, _, slices, pages, records, rfl, rfl, accepted, hslices, hpages, hread, hrecords,
    hcount, rfl⟩

end RecordSchema
