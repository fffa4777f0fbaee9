/-
# When encoding fails

Writing the members of a record fails if the value of a field cannot be written, or if keys are
left over that its table does not list (`Table.writeMembers_eq_error`).  Following this down,
the only fault in writing a value is a record with stray keys
(`Schemas.exists_strayKeys_of_encodeValue`).

In the other direction, members that are written have no stray keys, and neither have the
records inside of them (`Table.known_of_writeMembers`).  So a value is encoded just when no
record in it has stray keys, and then in normal form (`Schemas.encodeValue_eq_ok_iff`).
-/
import RecordSchema.Except
import RecordSchema.Proofs.Encoding
import RecordSchema.Record

namespace RecordSchema

/-! ## One table -/

section Table

variable {ρ : Type} {options : EncodeOptions} {encode : Field ρ → Except Fault Json}
  {fault : Fault}

lemma Draft.exists_of_foldlM_write_eq_error {fields : List (Field ρ)} {d : Draft}
    (h : fields.foldlM (fun d f => Draft.write options encode f d) d = .error fault) :
    ∃ f ∈ fields, encode f = .error fault := by
  induction fields generalizing d with
  | nil => cases h
  | cons f rest ih =>
    rw [List.foldlM_cons] at h
    rcases eq_error_of_bind h with hwrite | ⟨d', -, hrest⟩
    · refine ⟨f, List.mem_cons_self, ?_⟩
      rw [Draft.write] at hwrite
      split at hwrite
      · exact eq_error_of_map hwrite
      · cases hwrite
    · obtain ⟨g, hg, hfault⟩ := ih hrest
      exact ⟨g, List.mem_cons_of_mem _ hg, hfault⟩

/-- The fields of a table that lists no key twice are written only if all values are that they
hold. -/
lemma Draft.exists_of_foldlM_write_eq_ok {fields : List (Field ρ)} {d d' : Draft}
    (hnd : (fields.map Field.wire).Nodup)
    (h : fields.foldlM (fun d f => Draft.write options encode f d) d = .ok d') :
    ∀ f ∈ fields, ∀ v, f.held? d.left = some v → ∃ w, encode f = .ok w := by
  induction fields generalizing d with
  | nil => simp
  | cons f rest ih =>
    rw [List.map_cons, List.nodup_cons] at hnd
    rw [List.foldlM_cons] at h
    obtain ⟨d₁, hwrite, hrest⟩ := eq_ok_of_bind h
    intro g hg v hv
    rcases List.mem_cons.1 hg with rfl | hg
    · rw [Draft.write, hv] at hwrite
      obtain ⟨w, hw, -⟩ := eq_ok_of_map hwrite
      exact ⟨w, hw⟩
    · -- The key of a later field is still there when its turn comes.
      have hne : f.wire ≠ g.wire := fun heq => hnd.1 (heq ▸ List.mem_map.2 ⟨g, hg, rfl⟩)
      refine ih hnd.2 hrest g hg v ((Field.held?_congr ?_).trans hv)
      rw [Draft.left_of_write hwrite, Members.get?_erase, if_neg hne]

/-- Members are not written because one of the values is not, or because keys are left over. -/
lemma Table.writeMembers_eq_error {table : Table ρ} {ms : Members}
    (h : table.writeMembers options encode ms = .error fault) :
    (∃ f ∈ table.fields, encode f = .error fault) ∨
      ∃ keys, fault = .strayKeys table.name keys := by
  rw [writeMembers] at h
  rcases eq_error_of_bind h with hfold | ⟨d, -, hfinish⟩
  · exact .inl (Draft.exists_of_foldlM_write_eq_error hfold)
  · rw [Draft.finish] at hfinish
    split at hfinish
    · cases hfinish
    · exact .inr ⟨_, (Except.error.inj hfinish).symm⟩

/-- Members are written when all fields are, and no field leaves a key over. -/
lemma Table.exists_draft_of_writeMembers {table : Table ρ} {ms out : Members}
    (h : table.writeMembers options encode ms = .ok out) :
    ∃ d, table.fields.foldlM (fun d f => Draft.write options encode f d) ⟨ms, []⟩ = .ok d ∧
      d.left = [] ∧ d.written = out := by
  rw [writeMembers] at h
  obtain ⟨d, hfold, hfinish⟩ := eq_ok_of_bind h
  rw [Draft.finish] at hfinish
  split at hfinish
  · rename_i hempty
    exact ⟨d, hfold, List.isEmpty_iff.1 hempty, Except.ok.inj hfinish⟩
  · cases hfinish

/-- Members are written only if the table lists all their keys, and all values are written that
its fields hold. -/
theorem Table.known_of_writeMembers {table : Table ρ} {ms out : Members}
    (hnd : table.wires.Nodup) (h : table.writeMembers options encode ms = .ok out) :
    (∀ key ∈ Members.keys ms, key ∈ table.wires) ∧
      ∀ f ∈ table.fields, ∀ v, f.held? ms = some v → ∃ w, encode f = .ok w := by
  obtain ⟨d, hfold, hempty, -⟩ := Table.exists_draft_of_writeMembers h
  refine ⟨fun key hkey => ?_, Draft.exists_of_foldlM_write_eq_ok hnd hfold⟩
  rw [Draft.left_of_foldlM_write hfold, List.filter_eq_nil_iff] at hempty
  obtain ⟨m, hm, rfl⟩ := List.mem_map.1 hkey
  have hlisted := hempty m hm
  rwa [decide_eq_true_iff, not_not] at hlisted

end Table

/-! ## All tables -/

namespace Schemas

variable {S : Schemas} {options : EncodeOptions} {kind : Kind (Fin S.size)} {v w : Json}
  {fault : Fault}

/-- The only fault in writing a value is that a record has stray keys. -/
theorem exists_strayKeys_of_encodeValue (h : S.encodeValue options kind v = .error fault) :
    ∃ record keys, fault = .strayKeys record keys := by
  induction kind, v using descend with
  | flat kind v hflat =>
    rw [encodeValue_of_flat hflat] at h
    cases h
  | array item items ih =>
    rw [encodeValue] at h
    have hitems := eq_error_of_map h
    rw [encodeItems_eq_mapM] at hitems
    obtain ⟨v, hv, hfault⟩ := mapM_eq_error_iff.1 hitems
    exact ih v hv.mem hfault
  | record i ms ih =>
    rw [encodeValue_record, encodeRecord] at h
    rcases Table.writeMembers_eq_error (eq_error_of_map h) with ⟨f, hf, hfault⟩ | ⟨keys, rfl⟩
    · rw [encodeMember_eq] at hfault
      cases hget : Members.get? f.wire ms with
      | none =>
        rw [hget] at hfault
        cases hfault
      | some w =>
        rw [hget] at hfault
        replace hfault : S.encodeValue options f.kind w = .error fault := hfault
        refine ih f hf w (Field.held?_eq_some_iff.2 ⟨hget, fun hnull => ?_⟩) hfault
        rw [hnull, encodeValue_null] at hfault
        cases hfault
    · exact ⟨_, keys, rfl⟩

lemma exists_strayKeys_of_encodeRecord {i : Fin S.size} {ms : Members}
    (h : S.encodeRecord options i ms = .error fault) :
    ∃ record keys, fault = .strayKeys record keys :=
  exists_strayKeys_of_encodeValue (encodeRecord_eq_error_iff_object.1 h)

/-! ## What is encoded -/

/-- A value is written only if none of the records in it has stray keys. -/
theorem known_of_encodeValue (hregular : S.EachRecord S.Regular kind v)
    (h : S.encodeValue options kind v = .ok w) : S.EachRecord S.Known kind v := by
  induction kind, v using descend generalizing w with
  | flat kind v hflat => exact eachRecord_of_flat hflat
  | array item items ih =>
    rw [eachRecord_array_iff] at hregular ⊢
    rw [encodeValue] at h
    obtain ⟨ws, hws, -⟩ := eq_ok_of_map h
    rw [encodeItems_eq_mapM] at hws
    intro v hv
    obtain ⟨w, hw⟩ := exists_mapM_eq_ok_iff.1 ⟨ws, hws⟩ v hv
    exact ih v hv (hregular v hv) hw
  | record i ms ih =>
    obtain ⟨hhere, hinside⟩ := eachRecord_record_iff.1 hregular
    rw [encodeValue] at h
    obtain ⟨out, hout, -⟩ := eq_ok_of_map h
    obtain ⟨hknown, hvalues⟩ := Table.known_of_writeMembers hhere.distinct hout
    refine eachRecord_record_iff.2 ⟨hknown, fun f hf v hv => ?_⟩
    obtain ⟨w, hw⟩ := hvalues f hf v hv
    rw [encodeMember_eq, Field.get?_of_held? hv] at hw
    exact ih f hf v hv (hinside f hf v hv) hw

/-- A value is encoded just when none of the records in it has stray keys, and then it is put
into normal form. -/
theorem encodeValue_eq_ok_iff (hregular : S.EachRecord S.Regular kind v) :
    S.encodeValue options kind v = .ok w ↔
      S.EachRecord S.Known kind v ∧ S.normal options kind v = w := by
  constructor
  · intro h
    have hknown := known_of_encodeValue hregular h
    rw [encodeValue_eq_normal options hregular hknown] at h
    exact ⟨hknown, Except.ok.inj h⟩
  · rintro ⟨hknown, rfl⟩
    exact encodeValue_eq_normal options hregular hknown

/-! ## Records of a type -/

variable {α : Type} {R : RecordType α} {r : α}

/-- To encode a record that is written as an object is to write its members through the table. -/
lemma encode_eq_encodeRecord {i : Fin S.size} {ms : Members} (hi : S.nameOf i = R.name)
    (hwrite : R.write r = .ok (.object ms)) (options : EncodeOptions) :
    S.encode R r options = S.encodeRecord options i ms := by
  rw [encode, lookup_eq_ok hi, hwrite]
  rfl

/-- A record that is encoded is one of the set, and is written as an object. -/
lemma exists_of_encode_eq_ok {out : Members} (h : S.encode R r options = .ok out) :
    ∃ i ms, S.nameOf i = R.name ∧ R.write r = .ok (.object ms) ∧
      S.encodeRecord options i ms = .ok out := by
  rw [encode] at h
  obtain ⟨i, hi, hwrite⟩ := eq_ok_of_bind h
  have hname : S.nameOf i = R.name := by
    rw [lookup] at hi
    split at hi
    · rename_i hfind
      rw [← find?_eq_some_iff, hfind, Except.ok.inj hi]
    · cases hi
  split at hwrite
  · rename_i ms hms
    exact ⟨i, ms, hname, hms, hwrite⟩
  · cases hwrite
  · cases hwrite

end Schemas

end RecordSchema
