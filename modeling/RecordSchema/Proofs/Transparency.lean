/-
# What validation does not see

Keys that a table does not list and `null`s of fields that are not required carry no information.
Two payloads that become equal when they are removed, wherever they stand, have the same errors,
and the same record comes of both or the same failure (`indistinguishable_of_pruned_eq`).

Encoding a record changes nothing else either: it removes or adds just these `null`s.  So what is
encoded has the errors of what the record was written as, conforming or not (`validate_encode`).
-/
import RecordSchema.Proofs.Ordered
import RecordSchema.Proofs.RoundTrip
import RecordSchema.Proofs.StrayKeys

namespace RecordSchema

/-! ## Transparent changes of payloads -/

namespace Schemas

variable {S : Schemas} {i : Fin S.size} {v w : Json}

/-- A payload for a record has the same errors after a transparent change. -/
lemma Transparent.checkRecord_eq {change : Kind (Fin S.size) → Json → Json}
    (hchange : S.Transparent change) (hregular : S.EachRecord S.Regular (.record i) v) :
    S.checkRecord i (change (.record i) v) = S.checkRecord i v := by
  cases hopens : (Kind.record i).opens v with
  | false => rw [hchange.flat _ v hopens]
  | true =>
    cases v with
    | object ms =>
      have hhere := (eachRecord_record_iff.1 hregular).1
      obtain ⟨ns, hns, -⟩ := hchange.record i ms hhere
      have hcheck := hchange.check_eq hregular
      rw [hns] at hcheck ⊢
      exact hcheck
    | _ => cases hopens

/-! ## Payloads that prune alike -/

/-- Payloads that become equal when they are pruned have the same errors. -/
lemma checkRecord_eq_of_pruned_eq (hv : S.EachRecord S.Regular (.record i) v)
    (hw : S.EachRecord S.Regular (.record i) w)
    (same : S.pruned (.record i) v = S.pruned (.record i) w) :
    S.checkRecord i v = S.checkRecord i w := by
  have hv' := S.transparent_pruned.checkRecord_eq hv
  have hw' := S.transparent_pruned.checkRecord_eq hw
  rw [← hv', ← hw', same]

/-- A record of the set is constructed or not, but always with an outcome, which depends on the
errors of the payload and on how it is read. -/
lemma exists_construct_eq {α : Type} {R : RecordType α} (hi : S.nameOf i = R.name)
    (hcheck : S.checkRecord i v = S.checkRecord i w) (hread : R.read v = R.read w) :
    ∃ outcome, S.construct R v = .ok outcome ∧ S.construct R w = .ok outcome := by
  have hdecode : R.decode v = R.decode w := congrArg (Except.mapError _) hread
  have hsame : S.construct R v = S.construct R w := by
    rw [construct, construct, validate_eq hi, validate_eq hi, hcheck, hdecode]
  have hw : ∃ outcome, S.construct R w = .ok outcome := by
    rw [construct, validate_eq hi]
    exact ⟨_, rfl⟩
  obtain ⟨outcome, houtcome⟩ := hw
  exact ⟨outcome, hsame.trans houtcome, houtcome⟩

end Schemas

/-- Values that become equal when they are pruned are read alike. -/
lemma Codec.Fits.read_eq_of_pruned_eq {S : Schemas} {kind : Kind (Fin S.size)} {α : Type}
    {c : Codec α} (h : Fits S kind c) {v w : Json} (hv : S.EachRecord S.Regular kind v)
    (hw : S.EachRecord S.Regular kind w) (same : S.pruned kind v = S.pruned kind w) :
    c.read v = c.read w := by
  have hv' := h.read_change S.transparent_pruned v hv
  have hw' := h.read_change S.transparent_pruned w hw
  rw [← hv', ← hw', same]

/-- If two payloads become equal when they are pruned for a record, they have the same errors, in
any set whose tables list no key twice; and read as a record of the test read set, they have the
same outcome, be it a record or an error. -/
theorem indistinguishable_of_pruned_eq {v w : Json} (ordered : v.Ordered)
    (ordered' : w.Ordered) :
    (∀ {declared : List Declaration} {S : Schemas}, resolve declared = .ok S →
      (∀ d ∈ declared, d.wires.Nodup) → ∀ i,
      S.pruned (.record i) v = S.pruned (.record i) w →
        ∃ errors, S.validate (S.nameOf i) v = .ok errors ∧
          S.validate (S.nameOf i) w = .ok errors) ∧
    ∀ m : Model,
      Model.schemas.pruned (.record m.position) v = Model.schemas.pruned (.record m.position) w →
        ∃ outcome, Model.schemas.construct m.record v = .ok outcome ∧
          Model.schemas.construct m.record w = .ok outcome := by
  refine ⟨fun {declared S} resolved distinct i same => ?_, fun m same => ?_⟩
  · obtain rfl := declarations_of_resolve resolved
    have hv := ordered.eachRecord_regular (Schemas.nodup_wires distinct) (.record i)
    have hw := ordered'.eachRecord_regular (Schemas.nodup_wires distinct) (.record i)
    have herrors := Schemas.checkRecord_eq_of_pruned_eq hv hw same
    exact ⟨_, Schemas.validate_eq rfl v, herrors ▸ Schemas.validate_eq rfl w⟩
  · have hv := ordered.eachRecord_regular Model.nodup_wires (.record m.position)
    have hw := ordered'.eachRecord_regular Model.nodup_wires (.record m.position)
    have herrors := Schemas.checkRecord_eq_of_pruned_eq hv hw same
    have hread : m.record.read v = m.record.read w :=
      m.fits_position.read_eq_of_pruned_eq hv hw same
    exact Schemas.exists_construct_eq m.nameOf_position herrors hread

/-- A node whose child has no label, with and without a key of its own and a `null` for the
owner of the child; and a page whose response is refused for its status code, with and without
such keys. -/
theorem indistinguishable_nodes_and_pages :
    (∃ S i errors, resolve nodesAndOwners = .ok S ∧ S.nameOf i = "Node" ∧
      S.validate "Node" (.object [("children", .array [.object []]), ("label", .boolean true)])
        = .ok errors ∧
      S.validate "Node" (.object [
        ("children", .array [.object [("id", .null), ("owner_ref", .null)]]),
        ("label", .boolean true), ("level", .string "x")]) = .ok errors ∧
      errors = [⟨[.key "label"], .invalidType "string" "boolean"⟩,
        ⟨[.key "children", .index 0, .key "label"], .missing⟩]) ∧
    ∃ e, Model.schemas.construct Model.pageRecord.record (.object [("records", .array []),
        ("response", .object [("status", .number (.integer 70000))])]) = .ok (.error e) ∧
      Model.schemas.construct Model.pageRecord.record (.object [("records", .array []),
        ("request", .null), ("response", .object [("body", .null), ("code", .string "x"),
          ("status", .number (.integer 70000))])]) = .ok (.error e) ∧
      e = ⟨[.key "response", .key "status"],
        .undecodable "invalid value: integer `70000`, expected u16"⟩ := by
  constructor
  · have resolved : resolve nodesAndOwners = .ok _ := rfl
    obtain ⟨errors, hfirst, hsecond⟩ := (indistinguishable_of_pruned_eq
      (v := .object [("children", .array [.object []]), ("label", .boolean true)])
      (w := .object [("children", .array [.object [("id", .null), ("owner_ref", .null)]]),
        ("label", .boolean true), ("level", .string "x")])
      (by decide) (by decide)).1 resolved (by decide) ⟨0, by decide⟩ rfl
    exact ⟨_, ⟨0, by decide⟩, errors, resolved, rfl, hfirst, hsecond,
      Except.ok.inj (hfirst.symm.trans rfl)⟩
  · obtain ⟨outcome, hfirst, hsecond⟩ := (indistinguishable_of_pruned_eq
      (v := .object [("records", .array []),
        ("response", .object [("status", .number (.integer 70000))])])
      (w := .object [("records", .array []), ("request", .null),
        ("response", .object [("body", .null), ("code", .string "x"),
          ("status", .number (.integer 70000))])])
      (by decide) (by decide)).2 .pageRecord rfl
    obtain rfl : outcome = .error ⟨[.key "response", .key "status"],
        .undecodable "invalid value: integer `70000`, expected u16"⟩ :=
      Except.ok.inj (hfirst.symm.trans rfl)
    exact ⟨_, hfirst, hsecond, rfl⟩

/-! ## What is encoded -/

namespace Schemas

variable {S : Schemas} {options : EncodeOptions}

/-- What is written for a value has the same errors. -/
theorem check_of_encodeValue {kind : Kind (Fin S.size)} {v w : Json}
    (hregular : S.EachRecord S.Regular kind v) (h : S.encodeValue options kind v = .ok w) :
    S.check kind w = S.check kind v := by
  obtain ⟨-, rfl⟩ := (encodeValue_eq_ok_iff hregular).1 h
  exact (S.transparent_normal options).check_eq hregular

end Schemas

/-- In a set whose tables list no key twice, what a record is encoded as has the same errors as
what it was written as. -/
theorem validate_encode {declared : List Declaration} {S : Schemas}
    (resolved : resolve declared = .ok S) (distinct : ∀ d ∈ declared, d.wires.Nodup)
    {α : Type} {R : RecordType α} {r : α} {ms : Members} (written : R.write r = .ok (.object ms))
    (ordered : (Json.object ms).Ordered) {options : EncodeOptions} {out : Members}
    (encoded : S.encode R r options = .ok out) :
    ∃ errors, S.validate R.name (.object out) = .ok errors ∧
      S.validate R.name (.object ms) = .ok errors := by
  obtain rfl := declarations_of_resolve resolved
  obtain ⟨i, ns, hi, hns, hout⟩ := Schemas.exists_of_encode_eq_ok encoded
  obtain rfl : ns = ms := Json.object.inj (Except.ok.inj (hns.symm.trans written))
  have hregular := ordered.eachRecord_regular (Schemas.nodup_wires distinct) (.record i)
  have hvalue : S.encodeValue options (.record i) (.object ns) = .ok (.object out) := by
    rw [Schemas.encodeValue_record, hout]
    rfl
  have hcheck : S.checkRecord i (.object out) = S.checkRecord i (.object ns) :=
    Schemas.check_of_encodeValue hregular hvalue
  exact ⟨_, Schemas.validate_eq hi _, hcheck ▸ Schemas.validate_eq hi _⟩

/-- A node with a wrong label and a child without one: the `null`s that are written for their
owners and for the children of the child make no difference. -/
theorem validate_encode_node :
    ∃ S out errors, resolve nodesAndOwners = .ok S ∧
      S.encode ⟨"Node", [], .ok, .ok⟩ (.object [("children", .array [.object []]),
        ("label", .null)]) .explicitNulls = .ok out ∧
      out = [("children", .array [.object [("children", .null), ("owner_ref", .null)]]),
        ("label", .null), ("owner_ref", .null)] ∧
      S.validate "Node" (.object out) = .ok errors ∧
      S.validate "Node" (.object [("children", .array [.object []]), ("label", .null)])
        = .ok errors ∧
      errors = [⟨[.key "label"], .invalidType "string" "null"⟩,
        ⟨[.key "children", .index 0, .key "label"], .missing⟩] := by
  have resolved : resolve nodesAndOwners = .ok _ := rfl
  obtain ⟨errors, hencoded, hwritten⟩ := validate_encode resolved (by decide)
    (R := ⟨"Node", [], .ok, .ok⟩)
    (r := Json.object [("children", .array [.object []]), ("label", .null)]) rfl (by decide)
    (show Schemas.encode _ _ _ .explicitNulls = .ok _ from rfl)
  exact ⟨_, _, errors, resolved, rfl, rfl, hencoded, hwritten,
    Except.ok.inj (hwritten.symm.trans rfl)⟩

end RecordSchema
