/-
# An accepted payload is encoded in normal form

A record that is constructed from a payload keeps all that the tables have a use for.  When it
is written, the payload comes back pruned (`Codec.Fits.write_eq_pruned`): at each record
position without the keys that the table does not list and without the `null`s of fields that
need no value, and otherwise as it was.

So encoding the record gives the normal form of the payload for the options asked for
(`Codec.Fits.encode_eq_normal`).  `encode_of_construct` says this of the record types of a test
read, for both options.
-/
import RecordSchema.Proofs.Ordered
import RecordSchema.Proofs.RoundTrip

namespace RecordSchema

namespace Codec.Fits

variable {S : Schemas} {α : Type} {kind : Kind (Fin S.size)} {c : Codec α}

/-- What is read from a value without errors is written as the value pruned. -/
theorem write_eq_pruned (h : Fits S kind c) : ∀ {v : Json} {a : α}, S.check kind v = [] →
    S.EachRecord S.Regular kind v → c.read v = .ok a → c.write a = S.pruned kind v := by
  induction h with
  | text =>
    intro v a hcheck _ hread
    obtain ⟨s, rfl⟩ := Schemas.check_string_eq_nil_iff.1 hcheck
    obtain rfl := Except.ok.inj hread
    exact (Schemas.pruned_of_flat rfl).symm
  | flag =>
    intro v a hcheck _ hread
    obtain ⟨b, rfl⟩ := Schemas.check_boolean_eq_nil_iff.1 hcheck
    obtain rfl := Except.ok.inj hread
    exact (Schemas.pruned_of_flat rfl).symm
  | word =>
    intro v a hcheck _ hread
    obtain ⟨n, rfl⟩ := Schemas.check_integer_eq_nil_iff.1 hcheck
    obtain rfl := eq_toNat_of_readWord hread
    exact (Schemas.pruned_of_flat rfl).symm
  | document =>
    intro v a hcheck _ hread
    obtain ⟨ms, rfl⟩ := Schemas.check_object_eq_nil_iff.1 hcheck
    obtain rfl := Except.ok.inj hread
    exact (Schemas.pruned_of_flat rfl).symm
  | @list α kind c item ih =>
    intro v xs hcheck hregular hread
    obtain ⟨items, rfl, hitems⟩ := Schemas.exists_array_of_check hcheck
    rw [Schemas.eachRecord_array_iff] at hregular
    rw [Schemas.pruned_array]
    exact congrArg Json.array (map_write_of_readItems hread fun w hw a ha =>
      ih (hitems w hw) (hregular w hw) ha)
  | @literals α ls found =>
    intro v a hcheck _ hread
    obtain ⟨s, -, rfl⟩ := Schemas.check_oneOf_eq_nil_iff.1 hcheck
    rw [Schemas.pruned_of_flat rfl]
    exact congrArg Json.string (Literals.literal_of_lookup hread)
  | @record α τ i layout build parts value distinct fields values build_parts parts_build ih =>
    intro v r hcheck hregular hread
    obtain ⟨ms, rfl, -, hfields⟩ := Schemas.exists_object_of_check hcheck
    obtain ⟨hhere, hinside⟩ := Schemas.eachRecord_record_iff.1 hregular
    obtain ⟨p, hp, -, hwrite⟩ := fields.ofMembers_eq_ok distinct (eq_ok_of_mapError hread)
    have hparts : parts r = p := by rw [hp, parts_build]
    have hnd := (fields.keys_write_sublist r).nodup distinct
    rw [Schemas.pruned]
    -- Both sides are in order, so it is enough to compare what stands under each key.
    refine congrArg Json.object (Members.ext_get? (Members.ascending_ofList _)
      (Schemas.ascending_prunedMembers hhere.ascending _) fun key => ?_)
    rw [Members.get?_ofList hnd, Schemas.get?_prunedMembers hhere.ascending.nodup_keys]
    cases hline : (S.table i).line? key with
    | none =>
      rw [Table.line?_eq_none_iff] at hline
      exact Members.get?_eq_none_iff.2 fun hkey =>
        hline ((fields.keys_write_sublist r).subset hkey)
    | some f =>
      obtain ⟨hf, rfl⟩ := Table.mem_of_line? hline
      rw [Option.bind_some]
      have hrewritten := hwrite r hparts f hf
      generalize hheld : f.held? ms = held at hrewritten
      generalize Members.get? f.wire (layout.fields.write r) = written at hrewritten
      cases hrewritten with
      | nothing need => rfl
      | value codec read =>
        exact congrArg some (ih codec (hfields f hf _ hheld) (hinside f hf _ hheld) read)

/-- A record that is constructed from a payload is encoded as the payload in normal form. -/
theorem encode_eq_normal {i : Fin S.size} {layout : Layout α}
    (h : Fits S (.record i) layout.codec) (hi : S.nameOf i = layout.name) {v : Json} {r : α}
    (hregular : S.EachRecord S.Regular (.record i) v)
    (haccepted : S.construct layout.record v = .ok (.ok r)) (options : EncodeOptions) :
    ∃ out, S.encode layout.record r options = .ok out ∧
      .object out = S.normal options (.record i) v := by
  obtain ⟨hcheck, hread⟩ := (Schemas.construct_eq_ok_iff hi).1 haccepted
  have hwrite : layout.write r = S.pruned (.record i) v := h.write_eq_pruned hcheck hregular hread
  have hregular' : S.EachRecord S.Regular (.record i) (layout.write r) := h.regular_write r
  obtain ⟨out, hout, hnormal⟩ :=
    Schemas.encodeRecord_eq_normal options hregular' (h.known_write r)
  refine ⟨out, (Schemas.encode_eq_encodeRecord hi rfl options).trans hout, ?_⟩
  calc Json.object out
      = S.normal options (.record i) (layout.write r) := hnormal.symm
    _ = S.normal options (.record i) (S.pruned (.record i) v) := by rw [hwrite]
    _ = S.normal options (.record i) v := Schemas.normal_pruned options hregular

end Codec.Fits

/-- A record of a test read that is constructed from a payload is encoded as the payload
pruned, and with `null`s as the same payload filled. -/
theorem encode_of_construct (m : Model) {v : Json} {r : m.Carrier} (ordered : v.Ordered)
    (accepted : Model.schemas.construct m.record v = .ok (.ok r)) :
    (∃ out, Model.schemas.encode m.record r .standard = .ok out ∧
      .object out = Model.schemas.pruned (.record m.position) v) ∧
    ∃ out, Model.schemas.encode m.record r .explicitNulls = .ok out ∧
      .object out = Model.schemas.filled (.record m.position)
        (Model.schemas.pruned (.record m.position) v) := by
  have hregular := ordered.eachRecord_regular Model.nodup_wires (.record m.position)
  have hencode := m.fits_position.encode_eq_normal m.nameOf_position hregular accepted
  exact ⟨hencode .standard, hencode .explicitNulls⟩

/-- A response with a key of its own and a `null` in its headers loses only the key, and its
body is written as `null` if `null`s are asked for. -/
theorem encode_of_construct_response :
    (∃ out, Model.schemas.encode Model.httpResponse.record ⟨200, none, some [("x", .null)]⟩
        .standard = .ok out ∧
      .object out =
        Json.object [("headers", .object [("x", .null)]), ("status", .number (.integer 200))]) ∧
    ∃ out, Model.schemas.encode Model.httpResponse.record ⟨200, none, some [("x", .null)]⟩
        .explicitNulls = .ok out ∧
      .object out =
        Json.object [("body", .null), ("headers", .object [("x", .null)]),
          ("status", .number (.integer 200))] :=
  encode_of_construct .httpResponse
    (v := .object [("headers", .object [("x", .null)]), ("id", .string "7"),
      ("status", .number (.integer 200))])
    (.object (by decide) fun m hm => by
      simp only [List.mem_cons, List.not_mem_nil, or_false] at hm
      rcases hm with rfl | rfl | rfl
      · refine .object (by decide) fun m hm => ?_
        rw [List.mem_singleton.1 hm]
        exact .null
      · exact .string "7"
      · exact .number (.integer 200))
    rfl

end RecordSchema
