/-
# Records are constructed again from what is encoded

What a record writes conforms to its table and has no stray keys, so encoding puts it into
normal form and does not fail.  Validation has nothing against the normal form either, and
reading does not notice the difference, so that the record is constructed again.

`Codec.Fits.encode_then_construct` says so for any layout that fits its table, and
`construct_encode` for the record types of a test read, in every set that has their own
declarations.
-/
import RecordSchema.Proofs.Catalogue
import RecordSchema.Proofs.StrayKeys

namespace RecordSchema

namespace Schemas

variable {S : Schemas} {i : Fin S.size} {α : Type} {layout : Layout α}

/-- To construct a record from a payload without errors is to read it. -/
lemma construct_of_check_eq_nil (hi : S.nameOf i = layout.name) {v : Json}
    (h : S.check (.record i) v = []) :
    S.construct layout.record v =
      .ok ((layout.read v).mapError DecodeError.toValidationError) := by
  show (S.validate layout.name v).map _ = _
  rw [validate_eq hi, checkRecord_eq_nil_iff.2 h]
  rfl

/-- A record is constructed from a payload that has no errors and is read as the record. -/
theorem construct_eq_ok_iff (hi : S.nameOf i = layout.name) {v : Json} {r : α} :
    S.construct layout.record v = .ok (.ok r) ↔
      S.check (.record i) v = [] ∧ layout.read v = .ok r := by
  constructor
  · intro h
    have herrors : S.check (.record i) v = [] := by
      rw [← checkRecord_eq_nil_iff]
      rw [construct, show S.validate layout.record.name v = _ from validate_eq hi v] at h
      cases hcheck : S.checkRecord i v with
      | nil => rfl
      | cons e rest =>
        rw [hcheck] at h
        cases Except.ok.inj h
    rw [construct_of_check_eq_nil hi herrors, Except.ok.injEq] at h
    exact ⟨herrors, eq_ok_of_mapError h⟩
  · rintro ⟨herrors, hread⟩
    rw [construct_of_check_eq_nil hi herrors, hread]
    rfl

end Schemas

/-- A record whose layout fits is constructed again from what is encoded. -/
theorem Codec.Fits.encode_then_construct {S : Schemas} {i : Fin S.size} {α : Type}
    {layout : Layout α} (h : Codec.Fits S (.record i) layout.codec)
    (hi : S.nameOf i = layout.name) (r : α) (options : EncodeOptions) :
    ∃ out, S.encode layout.record r options = .ok out ∧
      S.construct layout.record (.object out) = .ok (.ok r) := by
  have hregular : S.EachRecord S.Regular (.record i) (layout.write r) := h.regular_write r
  obtain ⟨out, hout, hnormal⟩ :=
    Schemas.encodeRecord_eq_normal options hregular (h.known_write r)
  have hcheck : S.check (.record i) (.object out) = [] := by
    rw [← hnormal]
    exact ((S.transparent_normal options).check_eq hregular).trans (h.check_write r)
  have hread : layout.read (.object out) = .ok r := by
    rw [← hnormal]
    exact (h.read_change (S.transparent_normal options) _ hregular).trans (h.read_write r)
  exact ⟨out, (Schemas.encode_eq_encodeRecord hi rfl options).trans hout,
    (Schemas.construct_eq_ok_iff hi).2 ⟨hcheck, hread⟩⟩

/-- In every set that has the own declarations of a record type and of all that it reaches,
a record is encoded without a fault, and constructed again from the result. -/
theorem construct_encode (m : Model) (r : m.Carrier) (options : EncodeOptions)
    {declared : List Declaration} {S : Schemas} (resolved : resolve declared = .ok S)
    (own : m.Declared declared) :
    ∃ out, S.encode m.record r options = .ok out ∧
      S.construct m.record (.object out) = .ok (.ok r) := by
  obtain ⟨i, hi, hfits⟩ := Model.fits resolved own
  exact hfits.encode_then_construct hi r options

/-- A slice with an empty descriptor, a page without records and a state with a `null` in it. -/
theorem construct_encode_slice :
    resolve Model.declarations = .ok Model.schemas ∧
      Model.sliceRecord.Declared Model.declarations ∧
      ∃ out,
        Model.schemas.encode Model.sliceRecord.record
          ⟨[⟨[[]], none, some ⟨404, none, some []⟩⟩], some ⟨none, none⟩, some [("cursor", .null)]⟩
          .explicitNulls = .ok out ∧
        Model.schemas.construct Model.sliceRecord.record (.object out) =
          .ok (.ok ⟨[⟨[[]], none, some ⟨404, none, some []⟩⟩], some ⟨none, none⟩,
            some [("cursor", .null)]⟩) :=
  ⟨Model.resolve_declarations, Model.declared_declarations _,
    construct_encode .sliceRecord
      ⟨[⟨[[]], none, some ⟨404, none, some []⟩⟩], some ⟨none, none⟩, some [("cursor", .null)]⟩
      .explicitNulls Model.resolve_declarations (Model.declared_declarations _)⟩

end RecordSchema
