/-
# The two null policies

A record is encoded with or without `null`s for the fields that have no value.  Neither form says
more than the other: when it is encoded again, as what a record of the same name is written as,
the policy of the second time alone decides what comes of it, and nothing can go wrong
(`Schemas.encodeRecord_encodeRecord`).  So each of the two forms is kept by its own policy and
turned into the other one by the other policy, at every depth, whether or not the record conforms
to its table (`encode_again`).
-/
import RecordSchema.Proofs.Ordered
import RecordSchema.Proofs.Resolution
import RecordSchema.Proofs.StrayKeys

namespace RecordSchema

namespace Schemas

variable {S : Schemas} {options : EncodeOptions} {i : Fin S.size} {ms out : Members}

/-- Whether a value is written does not depend on the options, and what is written once can be
written again, as if it were for the first time. -/
theorem encodeValue_encodeValue {kind : Kind (Fin S.size)} {v w : Json}
    (hregular : S.EachRecord S.Regular kind v) (h : S.encodeValue options kind v = .ok w)
    (options' : EncodeOptions) :
    S.encodeValue options' kind v = .ok (S.normal options' kind v) ∧
      S.encodeValue options' kind w = .ok (S.normal options' kind v) := by
  obtain ⟨hknown, rfl⟩ := (encodeValue_eq_ok_iff hregular).1 h
  refine ⟨encodeValue_eq_normal options' hregular hknown, ?_⟩
  rw [← normal_normal options options' hregular]
  exact encodeValue_eq_normal options' (eachRecord_regular_normal options hregular)
    (eachRecord_known_normal options hregular)

lemma encodeRecord_encodeRecord
    (hregular : S.EachRecord S.Regular (.record i) (.object ms))
    (h : S.encodeRecord options i ms = .ok out) (options' : EncodeOptions) :
    ∃ out', S.encodeRecord options' i ms = .ok out' ∧
      S.encodeRecord options' i out = .ok out' := by
  obtain ⟨ns, hns, -⟩ := normal_record options' (eachRecord_record_iff.1 hregular).1
  obtain ⟨hfirst, hsecond⟩ :=
    encodeValue_encodeValue hregular (encodeRecord_eq_ok_iff.1 h) options'
  rw [hns] at hfirst hsecond
  exact ⟨ns, encodeRecord_eq_ok_iff.2 hfirst, encodeRecord_eq_ok_iff.2 hsecond⟩

end Schemas

/-- In a set whose tables list no key twice, a record that is encoded under one policy is encoded
under both.  Whatever record of the same name is written as one of the two results, it is encoded
without `null`s as the result without them, and with `null`s as the result with them. -/
theorem encode_again {declared : List Declaration} {S : Schemas}
    (resolved : resolve declared = .ok S) (distinct : ∀ d ∈ declared, d.wires.Nodup)
    {α : Type} {R : RecordType α} {r : α} {ms : Members} (written : R.write r = .ok (.object ms))
    (ordered : (Json.object ms).Ordered) {options : EncodeOptions} {out : Members}
    (encoded : S.encode R r options = .ok out) :
    ∃ omitting filling, S.encode R r .standard = .ok omitting ∧
      S.encode R r .explicitNulls = .ok filling ∧
      ∀ {β : Type} (R' : RecordType β) (r' : β), R'.name = R.name →
        R'.write r' = .ok (.object omitting) ∨ R'.write r' = .ok (.object filling) →
          S.encode R' r' .standard = .ok omitting ∧
          S.encode R' r' .explicitNulls = .ok filling := by
  obtain rfl := declarations_of_resolve resolved
  obtain ⟨i, ns, hi, hns, hout⟩ := Schemas.exists_of_encode_eq_ok encoded
  obtain rfl : ns = ms := Json.object.inj (Except.ok.inj (hns.symm.trans written))
  have hregular := ordered.eachRecord_regular (Schemas.nodup_wires distinct) (.record i)
  obtain ⟨omitting, homitting, -⟩ := Schemas.encodeRecord_encodeRecord hregular hout .standard
  obtain ⟨filling, hfilling, -⟩ := Schemas.encodeRecord_encodeRecord hregular hout .explicitNulls
  -- What was written under some policy is written again as the record itself would be.
  have hagain : ∀ {o out'}, S.encodeRecord o i ns = .ok out' →
      S.encodeRecord .standard i out' = .ok omitting ∧
      S.encodeRecord .explicitNulls i out' = .ok filling := by
    intro o out' h
    obtain ⟨_, hplain, hplain'⟩ := Schemas.encodeRecord_encodeRecord hregular h .standard
    obtain ⟨_, hfull, hfull'⟩ := Schemas.encodeRecord_encodeRecord hregular h .explicitNulls
    obtain rfl := Except.ok.inj (hplain.symm.trans homitting)
    obtain rfl := Except.ok.inj (hfull.symm.trans hfilling)
    exact ⟨hplain', hfull'⟩
  refine ⟨omitting, filling, (Schemas.encode_eq_encodeRecord hi hns _).trans homitting,
    (Schemas.encode_eq_encodeRecord hi hns _).trans hfilling, fun R' r' hname hwritten => ?_⟩
  have hi' : S.nameOf i = R'.name := hi.trans hname.symm
  rcases hwritten with h | h
  · obtain ⟨hplain, hfull⟩ := hagain homitting
    exact ⟨(Schemas.encode_eq_encodeRecord hi' h _).trans hplain,
      (Schemas.encode_eq_encodeRecord hi' h _).trans hfull⟩
  · obtain ⟨hplain, hfull⟩ := hagain hfilling
    exact ⟨(Schemas.encode_eq_encodeRecord hi' h _).trans hplain,
      (Schemas.encode_eq_encodeRecord hi' h _).trans hfull⟩

/-- A node with a wrong label, whose child says that it has no owner and whose owner is no
object: both forms are turned into each other. -/
theorem encode_again_node :
    ∃ S omitting filling, resolve nodesAndOwners = .ok S ∧
      (∀ d ∈ nodesAndOwners, d.wires.Nodup) ∧
      S.encode ⟨"Node", [], .ok, .ok⟩ (.object [
        ("children", .array [.object [("owner_ref", .null)]]), ("label", .null),
        ("owner_ref", .string "x")]) .standard = .ok omitting ∧
      omitting = [("children", .array [.object []]), ("label", .null),
        ("owner_ref", .string "x")] ∧
      filling = [("children", .array [.object [("children", .null), ("owner_ref", .null)]]),
        ("label", .null), ("owner_ref", .string "x")] ∧
      S.encode ⟨"Node", [], .ok, .ok⟩ (.object omitting) .standard = .ok omitting ∧
      S.encode ⟨"Node", [], .ok, .ok⟩ (.object omitting) .explicitNulls = .ok filling ∧
      S.encode ⟨"Node", [], .ok, .ok⟩ (.object filling) .standard = .ok omitting ∧
      S.encode ⟨"Node", [], .ok, .ok⟩ (.object filling) .explicitNulls = .ok filling := by
  have resolved : resolve nodesAndOwners = .ok _ := rfl
  have distinct : ∀ d ∈ nodesAndOwners, d.wires.Nodup := by decide
  obtain ⟨omitting, filling, hplain, hfull, hagain⟩ := encode_again resolved distinct
    (R := ⟨"Node", [], .ok, .ok⟩)
    (r := Json.object [("children", .array [.object [("owner_ref", .null)]]), ("label", .null),
      ("owner_ref", .string "x")]) rfl (by decide)
    (show Schemas.encode _ _ _ .standard = .ok _ from rfl)
  obtain ⟨hplain₁, hfull₁⟩ := hagain ⟨"Node", [], .ok, .ok⟩ (.object omitting) rfl (.inl rfl)
  obtain ⟨hplain₂, hfull₂⟩ := hagain ⟨"Node", [], .ok, .ok⟩ (.object filling) rfl (.inr rfl)
  exact ⟨_, omitting, filling, resolved, distinct, hplain,
    Except.ok.inj (hplain.symm.trans rfl), Except.ok.inj (hfull.symm.trans rfl),
    hplain₁, hfull₁, hplain₂, hfull₂⟩

end RecordSchema
