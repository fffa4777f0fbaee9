/-
# Encoding writes the normal form

Encoding takes the members of a record apart, field by field, and puts together new ones.
One field takes its key out of what is left and may write one entry
(`Draft.write_eq_settled`); all fields of a table therefore leave exactly the members whose keys
the table does not list (`Draft.left_of_foldlM_write`), and if it lists no key twice they write
for each key the entry of its line (`Draft.foldlM_write`).

So if a payload has no such keys, its written form is its normal form
(`Schemas.encodeValue_eq_normal`): pruned, and then filled if `null`s are to be written.  A normal
form can be put into either normal form again, and only the last one counts
(`Schemas.normal_normal`).
-/
import RecordSchema.Except
import RecordSchema.Schemas.Encode
import RecordSchema.Proofs.NormalForm

namespace RecordSchema

/-! ## One table -/

section Table

variable {ρ : Type} {options : EncodeOptions} {encode : Field ρ → Except Fault Json}
  {value : Field ρ → Json → Json}

/-- What is written for a field, given the written form of its value. -/
def Field.entry? (options : EncodeOptions) (f : Field ρ) : Option Json → Option Json
  | some v => some v
  | none =>
    if f.required then none
    else match options.absent with
      | .omit => none
      | .null => some .null

namespace Draft

/-- A draft from which a field has taken its key, with its entry written if it has one. -/
def settled (f : Field ρ) (entry : Option Json) (d : Draft) : Draft where
  left := Members.erase f.wire d.left
  written := entry.elim d.written fun v => Members.insert f.wire v d.written

lemma get?_settled (f : Field ρ) (entry : Option Json) (d : Draft) (key : String) :
    Members.get? key (d.settled f entry).written =
      (if f.wire = key then entry else none).or (Members.get? key d.written) := by
  cases entry with
  | none => simp [settled]
  | some v =>
    show Members.get? key (Members.insert f.wire v d.written) = _
    rw [Members.get?_insert]
    split <;> rfl

lemma ascending_settled (f : Field ρ) (entry : Option Json) {d : Draft}
    (h : d.written.Ascending) : (d.settled f entry).written.Ascending := by
  cases entry with
  | none => exact h
  | some v => exact Members.ascending_insert _ _ h

lemma skip_eq_settled (options : EncodeOptions) (f : Field ρ) (d : Draft) :
    d.skip options f = d.settled f (f.entry? options none) := by
  unfold skip settled Field.entry?
  cases f.required <;> cases options.absent <;> rfl

/-- One field takes its key out of what is left, and writes its entry if it has one. -/
theorem write_eq_settled {f : Field ρ} {d : Draft}
    (hencode : ∀ v, f.held? d.left = some v → encode f = .ok (value f v)) :
    d.write options encode f =
      .ok (d.settled f (f.entry? options ((f.held? d.left).map (value f)))) := by
  unfold write
  cases hheld : f.held? d.left with
  | some v =>
    rw [hencode v hheld]
    rfl
  | none => exact congrArg Except.ok (skip_eq_settled options f d)

/-- A field that is written takes its key out of what is left, and writes the value it holds there
or, if there is none, what stands for an absent value. -/
lemma eq_settled_of_write {f : Field ρ} {d d' : Draft} (h : d.write options encode f = .ok d') :
    (∃ v w, f.held? d.left = some v ∧ encode f = .ok w ∧ d' = d.settled f (some w)) ∨
      f.held? d.left = none ∧ d' = d.settled f (f.entry? options none) := by
  rw [write] at h
  split at h
  · rename_i v hv
    obtain ⟨w, hw, rfl⟩ := eq_ok_of_map h
    exact .inl ⟨v, w, hv, hw, rfl⟩
  · rename_i hnone
    obtain rfl := Except.ok.inj h
    exact .inr ⟨hnone, skip_eq_settled options f d⟩

/-- Every field takes its key out of what is left, whether it has a value or not. -/
lemma left_of_write {f : Field ρ} {d d' : Draft} (h : d.write options encode f = .ok d') :
    d'.left = Members.erase f.wire d.left := by
  rcases eq_settled_of_write h with ⟨v, w, -, -, rfl⟩ | ⟨-, rfl⟩ <;> rfl

/-- After all fields of a table, those members are left whose keys none of them has. -/
theorem left_of_foldlM_write {fields : List (Field ρ)} {d d' : Draft}
    (h : fields.foldlM (fun d f => d.write options encode f) d = .ok d') :
    d'.left = d.left.filter fun m => m.1 ∉ fields.map Field.wire := by
  induction fields generalizing d with
  | nil =>
    obtain rfl := Except.ok.inj h
    simp
  | cons f rest ih =>
    rw [List.foldlM_cons] at h
    obtain ⟨d₁, hwrite, hrest⟩ := eq_ok_of_bind h
    rw [ih hrest, left_of_write hwrite, Members.erase, List.filter_filter]
    refine List.filter_congr fun m _ => ?_
    rw [Bool.eq_iff_iff]
    simp only [Bool.and_eq_true, decide_eq_true_iff, List.map_cons, List.mem_cons, not_or]
    exact And.comm

/-- For each of the keys of a table that lists none twice, the entry of its field is written. -/
theorem foldlM_write {fields : List (Field ρ)} (hnd : (fields.map Field.wire).Nodup) (d : Draft)
    (hencode : ∀ f ∈ fields, ∀ v, f.held? d.left = some v → encode f = .ok (value f v)) :
    ∃ d', fields.foldlM (fun d f => d.write options encode f) d = .ok d' ∧
      (d.written.Ascending → d'.written.Ascending) ∧
      ∀ key, Members.get? key d'.written =
        ((fields.find? fun f => f.wire == key).bind fun f =>
          f.entry? options ((f.held? d.left).map (value f))).or (Members.get? key d.written) := by
  induction fields generalizing d with
  | nil => exact ⟨d, rfl, id, by simp⟩
  | cons f rest ih =>
    rw [List.map_cons, List.nodup_cons] at hnd
    rw [List.foldlM_cons, write_eq_settled (hencode f List.mem_cons_self)]
    generalize hentry : f.entry? options ((f.held? d.left).map (value f)) = entry
    -- The later fields have other keys, so they still find their values.
    have hlater : ∀ g ∈ rest, g.held? (d.settled f entry).left = g.held? d.left := by
      intro g hg
      have hne : f.wire ≠ g.wire := fun heq => hnd.1 (heq ▸ List.mem_map.2 ⟨g, hg, rfl⟩)
      exact Field.held?_congr (by rw [settled, Members.get?_erase, if_neg hne])
    obtain ⟨d', hd', hasc, hget⟩ := ih hnd.2 (d.settled f entry)
      fun g hg v hv => hencode g (List.mem_cons_of_mem _ hg) v (hlater g hg ▸ hv)
    refine ⟨d', hd', fun h => hasc (ascending_settled f entry h), fun key => ?_⟩
    rw [hget, get?_settled]
    by_cases hkey : f.wire = key
    · subst hkey
      have hnone : (rest.find? fun g => g.wire == f.wire) = none := by
        rw [List.find?_eq_none]
        intro g hg hsame
        exact hnd.1 (List.mem_map.2 ⟨g, hg, by simpa using hsame⟩)
      rw [hnone, List.find?_cons_of_pos (by simp), Option.bind_some, hentry]
      simp
    · rw [List.find?_cons_of_neg (by simpa using hkey), if_neg hkey, Option.none_or]
      congr 1
      cases hfind : rest.find? fun g => g.wire == key with
      | none => rfl
      | some g =>
        rw [Option.bind_some, Option.bind_some, hlater g (List.mem_of_find?_eq_some hfind)]

end Draft

/-- Members without keys that the table does not list are written key by key. -/
theorem Table.writeMembers_eq_ok (options : EncodeOptions) {table : Table ρ} {ms : Members}
    (hnd : table.wires.Nodup)
    (hknown : ∀ key ∈ Members.keys ms, key ∈ table.wires)
    (hencode : ∀ f ∈ table.fields, ∀ v, f.held? ms = some v → encode f = .ok (value f v)) :
    ∃ out, table.writeMembers options encode ms = .ok out ∧ out.Ascending ∧
      ∀ key, Members.get? key out =
        (table.line? key).bind fun f => f.entry? options ((f.held? ms).map (value f)) := by
  obtain ⟨d, hd, hasc, hget⟩ := Draft.foldlM_write hnd ⟨ms, []⟩ hencode
  -- Every key has been asked for by the field whose line lists it.
  have hempty : d.left = [] := by
    rw [Draft.left_of_foldlM_write hd]
    refine List.filter_eq_nil_iff.2 fun m hm => ?_
    rw [decide_eq_true_iff, not_not]
    exact hknown m.1 (List.mem_map.2 ⟨m, hm, rfl⟩)
  refine ⟨d.written, ?_, hasc Members.ascending_nil, fun key => ?_⟩
  · rw [writeMembers, hd]
    show d.finish table.name = .ok d.written
    rw [Draft.finish, hempty]
    rfl
  · rw [hget, Members.get?_nil, Option.or_none]
    rfl

end Table

/-! ## All tables -/

namespace Schemas

/-- The written form of a value: pruned, and with `null`s if the options ask for them. -/
def normal (S : Schemas) (options : EncodeOptions) (kind : Kind (Fin S.size)) (v : Json) : Json :=
  match options.absent with
  | .omit => S.pruned kind v
  | .null => S.filled kind (S.pruned kind v)

/-- The table of a record lists all keys of its members. -/
def Known (S : Schemas) (i : Fin S.size) (ms : Members) : Prop :=
  ∀ key ∈ Members.keys ms, key ∈ (S.table i).wires

variable {S : Schemas} {options : EncodeOptions} {i : Fin S.size} {ms : Members}

theorem transparent_normal (S : Schemas) (options : EncodeOptions) :
    S.Transparent (S.normal options) := by
  unfold normal
  cases options.absent
  · exact S.transparent_pruned
  · exact S.transparent_filled.comp S.transparent_pruned fun _ _ _ => regular_of_pruned_eq

/-- Pruning first makes no difference to the normal form. -/
lemma normal_pruned (options : EncodeOptions) {kind : Kind (Fin S.size)} {v : Json}
    (h : S.EachRecord S.Regular kind v) :
    S.normal options kind (S.pruned kind v) = S.normal options kind v := by
  unfold normal
  rw [pruned_pruned h]

/-- In the normal form of a record, each key has the entry of its line. -/
theorem normal_record (options : EncodeOptions) (h : S.Regular i ms) :
    ∃ ns : Members, S.normal options (.record i) (.object ms) = .object ns ∧ ns.Ascending ∧
      ∀ key, Members.get? key ns = ((S.table i).line? key).bind fun f =>
        f.entry? options ((f.held? ms).map (S.normal options f.kind)) := by
  have hpruned := ascending_prunedMembers h.ascending (S.table i)
  unfold normal Field.entry?
  cases options.absent
  · refine ⟨_, by rw [pruned], hpruned, fun key => ?_⟩
    rw [get?_prunedMembers h.ascending.nodup_keys]
    cases (S.table i).line? key with
    | none => rfl
    | some f => cases hheld : f.held? ms <;> simp [hheld]
  · refine ⟨_, by rw [pruned, filled],
      ascending_withNulls _ (ascending_filledMembers hpruned _), fun key => ?_⟩
    rw [get?_withNulls_of_distinct h.distinct, filledMembers_eq,
      Members.get?_update hpruned.nodup_keys, get?_prunedMembers h.ascending.nodup_keys]
    cases hline : (S.table i).line? key with
    | none => rfl
    | some f => cases hheld : f.held? ms <;> simp [hheld]

lemma encodeValue_of_flat {kind : Kind (Fin S.size)} {v : Json} (h : kind.opens v = false) :
    S.encodeValue options kind v = .ok v := by
  cases v <;> cases kind <;> simp_all [encodeValue, Kind.opens]

lemma encodeValue_null (kind : Kind (Fin S.size)) :
    S.encodeValue options kind .null = .ok .null :=
  encodeValue_of_flat (by cases kind <;> rfl)

lemma encodeItems_eq_mapM (kind : Kind (Fin S.size)) (items : List Json) :
    S.encodeItems options kind items = items.mapM (S.encodeValue options kind) := by
  induction items with
  | nil => rw [encodeItems]; rfl
  | cons v rest ih => rw [encodeItems, ih, List.mapM_cons]; rfl

/-- A payload without keys that its tables do not list is written in normal form. -/
theorem encodeValue_eq_normal (options : EncodeOptions) {kind : Kind (Fin S.size)} {v : Json}
    (hregular : S.EachRecord S.Regular kind v) (hknown : S.EachRecord S.Known kind v) :
    S.encodeValue options kind v = .ok (S.normal options kind v) := by
  induction kind, v using descend with
  | flat kind v hflat => rw [(S.transparent_normal options).flat kind v hflat, encodeValue_of_flat hflat]
  | array item items ih =>
    rw [eachRecord_array_iff] at hregular hknown
    have hitems : S.encodeItems options item items = .ok (items.map (S.normal options item)) := by
      rw [encodeItems_eq_mapM]
      exact mapM_eq_ok_map fun v hv => ih v hv (hregular v hv) (hknown v hv)
    rw [encodeValue, hitems, (S.transparent_normal options).array]
    rfl
  | record i ms ih =>
    obtain ⟨hhere, hinside⟩ := eachRecord_record_iff.1 hregular
    obtain ⟨hhere', hinside'⟩ := eachRecord_record_iff.1 hknown
    have hencode : ∀ f ∈ (S.table i).fields, ∀ v, f.held? ms = some v →
        S.encodeMember options f.wire f.kind ms = .ok (S.normal options f.kind v) := by
      intro f hf v hv
      rw [encodeMember_eq, Field.get?_of_held? hv]
      exact ih f hf v hv (hinside f hf v hv) (hinside' f hf v hv)
    -- What is written and the normal form have the same entry for every key.
    obtain ⟨out, hout, hasc, hget⟩ := Table.writeMembers_eq_ok options hhere.distinct hhere'
      hencode
    obtain ⟨ns, hns, hasc', hget'⟩ := normal_record options hhere
    have hsame : out = ns := Members.ext_get? hasc hasc' fun key => by rw [hget, hget']
    rw [encodeValue, hout, hns, hsame]
    rfl

/-- To write the members of a record is to write the object. -/
lemma encodeRecord_eq_ok_iff {out : Members} :
    S.encodeRecord options i ms = .ok out ↔
      S.encodeValue options (.record i) (.object ms) = .ok (.object out) := by
  rw [encodeValue_record]
  cases S.encodeRecord options i ms <;> simp [Except.map]

/-- If the members of a record are not written, neither is the object, for the same fault. -/
lemma encodeRecord_eq_error_iff_object {fault : Fault} :
    S.encodeRecord options i ms = .error fault ↔
      S.encodeValue options (.record i) (.object ms) = .error fault := by
  rw [encodeValue_record]
  cases S.encodeRecord options i ms <;> simp [Except.map]

/-- The members of a record without stray keys are written in normal form. -/
theorem encodeRecord_eq_normal (options : EncodeOptions)
    (hregular : S.EachRecord S.Regular (.record i) (.object ms))
    (hknown : S.EachRecord S.Known (.record i) (.object ms)) :
    ∃ out, S.encodeRecord options i ms = .ok out ∧
      S.normal options (.record i) (.object ms) = .object out := by
  obtain ⟨out, hout, -⟩ := normal_record options (eachRecord_record_iff.1 hregular).1
  have hvalue := encodeValue_eq_normal options hregular hknown
  rw [hout] at hvalue
  exact ⟨out, encodeRecord_eq_ok_iff.2 hvalue, hout⟩

/-! ## Normal forms of normal forms -/

/-- The records in a normal form are in order and have no keys that their tables do not list. -/
lemma regular_and_known_normal (options : EncodeOptions) {kind : Kind (Fin S.size)} {v : Json}
    (h : S.EachRecord S.Regular kind v) :
    S.EachRecord (fun i ms => S.Regular i ms ∧ S.Known i ms) kind (S.normal options kind v) := by
  refine (S.transparent_normal options).eachRecord (fun i ms ns hms hns => ?_) h
  obtain ⟨ns', hns', hasc, hget⟩ := normal_record options hms
  obtain rfl := Json.object.inj (hns.symm.trans hns')
  refine ⟨⟨hms.distinct, hasc⟩, fun key hkey => ?_⟩
  obtain ⟨w, hw⟩ := Members.mem_keys_iff.1 hkey
  obtain ⟨f, hline, -⟩ := Option.bind_eq_some_iff.1 ((hget key).symm.trans hw)
  obtain ⟨hf, rfl⟩ := Table.mem_of_line? hline
  exact List.mem_map.2 ⟨f, hf, rfl⟩

lemma eachRecord_regular_normal (options : EncodeOptions) {kind : Kind (Fin S.size)} {v : Json}
    (h : S.EachRecord S.Regular kind v) : S.EachRecord S.Regular kind (S.normal options kind v) :=
  fun p i ms hlocated => (regular_and_known_normal options h p i ms hlocated).1

lemma eachRecord_known_normal (options : EncodeOptions) {kind : Kind (Fin S.size)} {v : Json}
    (h : S.EachRecord S.Regular kind v) : S.EachRecord S.Known kind (S.normal options kind v) :=
  fun p i ms hlocated => (regular_and_known_normal options h p i ms hlocated).2

/-- Of two normal forms, one after the other, the second one counts. -/
theorem normal_normal (options options' : EncodeOptions) {kind : Kind (Fin S.size)} {v : Json}
    (h : S.EachRecord S.Regular kind v) :
    S.normal options' kind (S.normal options kind v) = S.normal options' kind v := by
  have hregular := eachRecord_regular_normal options h
  rw [← normal_pruned options' hregular, (S.transparent_normal options).pruned_eq h hregular,
    normal_pruned options' h]

end Schemas

end RecordSchema
