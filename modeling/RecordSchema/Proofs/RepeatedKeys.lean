/-
# Keys that a table lists more than once

Nothing keeps a table from listing a key on several lines.  Of these, the first one takes the value
of the key and writes it, and the later ones find none.  A later line for a field that is not
required stands for an absent value then, and if `null`s are asked for, it puts one in the place
of the value that has just been written.

`Draft.get?_of_write_of_taken` says what one field does to a key that is taken already,
`Draft.get?_of_foldlM_write_of_taken` what all of them do, and `Draft.get?_of_foldlM_write` follows
a key from its value to what is finally written for it.  So a value is never left out, and it is
lost just if `null`s are asked for and a later line for its key is not required
(`encoded_null_iff`).  If no table lists a key twice, `null`s only ever stand where there was no
value.
-/
import RecordSchema.Proofs.Resolution
import RecordSchema.Proofs.StrayKeys

namespace RecordSchema

/-- The lines of a table for a key, but for the first one. -/
def Table.repetitions {ρ : Type} (table : Table ρ) (key : String) : List (Field ρ) :=
  (table.fields.filter fun f => f.wire == key).tail

lemma Table.repetitions_map {ρ σ : Type} (f : ρ → σ) (table : Table ρ) (key : String) :
    (table.map f).repetitions key = (table.repetitions key).map (Field.map f) := by
  simp [repetitions, map, List.filter_map, Field.map, Function.comp_def, List.map_tail]

/-! ## What becomes of a key -/

section Draft

variable {ρ : Type} {options : EncodeOptions} {encode : Field ρ → Except Fault Json}
  {key : String}

namespace Draft

/-- One field leaves a key alone that is taken already, unless it writes `null` for it. -/
lemma get?_of_write_of_taken {f : Field ρ} {d d' : Draft}
    (h : d.write options encode f = .ok d') (htaken : Members.get? key d.left = none) :
    Members.get? key d'.left = none ∧
      Members.get? key d'.written =
        if options.absent = .null ∧ f.wire = key ∧ f.required = false then some .null
        else Members.get? key d.written := by
  refine ⟨by rw [left_of_write h, Members.get?_erase, htaken, ite_self], ?_⟩
  rcases eq_settled_of_write h with ⟨v, w, hv, -, rfl⟩ | ⟨-, rfl⟩
  · -- The field has a value, so it has another key.
    have hne : f.wire ≠ key := by
      rintro rfl
      rw [Field.get?_of_held? hv] at htaken
      cases htaken
    simp [get?_settled, hne]
  · rw [get?_settled, Field.entry?]
    by_cases hkey : f.wire = key
    · cases f.required <;> cases options.absent <;> simp [hkey]
    · simp [hkey]

/-- After all fields, `null` is written for a key that is taken already if one of them does so. -/
theorem get?_of_foldlM_write_of_taken {fields : List (Field ρ)} {d d' : Draft}
    (h : fields.foldlM (fun d f => d.write options encode f) d = .ok d')
    (htaken : Members.get? key d.left = none) :
    Members.get? key d'.written =
      if options.absent = .null ∧ ∃ f ∈ fields, f.wire = key ∧ f.required = false then some .null
      else Members.get? key d.written := by
  induction fields generalizing d with
  | nil =>
    obtain rfl := Except.ok.inj h
    simp
  | cons f rest ih =>
    rw [List.foldlM_cons] at h
    obtain ⟨d₁, hwrite, hrest⟩ := eq_ok_of_bind h
    obtain ⟨htaken₁, hwritten₁⟩ := get?_of_write_of_taken hwrite htaken
    rw [ih hrest htaken₁, hwritten₁]
    simp only [List.exists_mem_cons_iff]
    by_cases hlater : options.absent = .null ∧ ∃ g ∈ rest, g.wire = key ∧ g.required = false
    · rw [if_pos hlater, if_pos ⟨hlater.1, .inr hlater.2⟩]
    · rw [if_neg hlater]
      refine if_congr ?_ rfl rfl
      constructor
      · rintro ⟨hnull, hf⟩
        exact ⟨hnull, .inl hf⟩
      · rintro ⟨hnull, hf | hrest⟩
        · exact ⟨hnull, hf⟩
        · exact absurd ⟨hnull, hrest⟩ hlater

/-- A value that is taken is written for the first field of its key, and later fields of the key
may write `null` over it. -/
theorem get?_of_foldlM_write {fields : List (Field ρ)} {d d' : Draft} {v : Json}
    (h : fields.foldlM (fun d f => d.write options encode f) d = .ok d')
    (hv : Members.get? key d.left = some v) (hvalue : v ≠ .null)
    (htaken : Members.get? key d'.left = none) :
    ∃ f ∈ fields, f.wire = key ∧ ∃ w, encode f = .ok w ∧
      Members.get? key d'.written =
        if options.absent = .null ∧
            ∃ g ∈ (fields.filter fun f : Field ρ => f.wire == key).tail, g.required = false
        then some .null
        else some w := by
  induction fields generalizing d with
  | nil =>
    obtain rfl := Except.ok.inj h
    rw [hv] at htaken
    cases htaken
  | cons f rest ih =>
    rw [List.foldlM_cons] at h
    obtain ⟨d₁, hwrite, hrest⟩ := eq_ok_of_bind h
    have hleft₁ := left_of_write hwrite
    by_cases hkey : f.wire = key
    · subst hkey
      have hheld : f.held? d.left = some v :=
        Field.held?_eq_some_iff.2 ⟨hv, fun hnull => absurd hnull hvalue⟩
      rcases eq_settled_of_write hwrite with ⟨-, w, -, hw, rfl⟩ | ⟨hnone, -⟩
      · refine ⟨f, List.mem_cons_self, rfl, w, hw, ?_⟩
        have htaken₁ : Members.get? f.wire (d.settled f (some w)).left = none := by
          rw [hleft₁, Members.get?_erase, if_pos rfl]
        rw [get?_of_foldlM_write_of_taken hrest htaken₁, get?_settled,
          List.filter_cons_of_pos (by simp)]
        simp [and_assoc]
      · rw [hheld] at hnone
        cases hnone
    · obtain ⟨g, hg, hgkey, w, hw, hwritten⟩ := ih hrest (by rw [hleft₁, Members.get?_erase,
        if_neg hkey, hv])
      refine ⟨g, List.mem_cons_of_mem _ hg, hgkey, w, hw, ?_⟩
      rwa [List.filter_cons_of_neg (by simpa using hkey)]

end Draft

end Draft

/-! ## What becomes of a value -/

namespace Schemas

variable {S : Schemas} {options : EncodeOptions} {kind : Kind (Fin S.size)} {v w : Json}

lemma encodeValue_ne_null (h : S.encodeValue options kind v = .ok w) (hv : v ≠ .null) :
    w ≠ .null := by
  rintro rfl
  cases hopens : kind.opens v with
  | false =>
    rw [encodeValue_of_flat hopens] at h
    exact hv (Except.ok.inj h)
  | true =>
    match kind, v with
    | .array item, .array items =>
      rw [encodeValue] at h
      obtain ⟨ws, -, hws⟩ := eq_ok_of_map h
      cases hws
    | .record i, .object ms =>
      rw [encodeValue_record] at h
      obtain ⟨out, -, hout⟩ := eq_ok_of_map h
      cases hout

/-- For every value of a record something is written, and it is `null` just if `null`s are asked
for and a later line for its key is not required. -/
theorem encodeRecord_null_iff {i : Fin S.size} {ms out : Members} {key : String}
    (h : S.encodeRecord options i ms = .ok out) (hv : Members.get? key ms = some v)
    (hvalue : v ≠ .null) :
    ∃ w, Members.get? key out = some w ∧ (w = .null ↔
      options.absent = .null ∧ ∃ f ∈ (S.table i).repetitions key, f.required = false) := by
  obtain ⟨d, hfold, hempty, rfl⟩ := Table.exists_draft_of_writeMembers h
  have htaken : Members.get? key d.left = none := by
    rw [hempty, Members.get?_nil]
  obtain ⟨f, -, rfl, w, hw, hwritten⟩ := Draft.get?_of_foldlM_write hfold hv hvalue htaken
  rw [encodeMember_eq, hv] at hw
  have hne : w ≠ .null := encodeValue_ne_null hw hvalue
  rw [hwritten, Table.repetitions]
  split
  · rename_i hlost
    exact ⟨.null, rfl, fun _ => hlost, fun _ => rfl⟩
  · rename_i hkept
    exact ⟨w, rfl, fun hnull => absurd hnull hne, fun hlost => absurd hlost hkept⟩

end Schemas

/-- Whatever the tables of a set list, a value that a record is written with has an entry under
its key when the record is encoded.  The entry is `null` just if `null`s are asked for and the
table of the record lists the key once more, for a field that is not required. -/
theorem encoded_null_iff {declared : List Declaration} {S : Schemas}
    (resolved : resolve declared = .ok S) {d : Declaration} (table : d ∈ declared)
    {α : Type} {R : RecordType α} (name : R.name = d.name) {r : α} {ms : Members}
    (written : R.write r = .ok (.object ms)) {options : EncodeOptions} {out : Members}
    (encoded : S.encode R r options = .ok out) {key : String} {v : Json}
    (held : Members.get? key ms = some v) (value : v ≠ .null) :
    ∃ w, Members.get? key out = some w ∧ (w = .null ↔
      options.absent = .null ∧ ∃ f ∈ d.repetitions key, f.required = false) := by
  obtain rfl := declarations_of_resolve resolved
  obtain ⟨i, ns, hi, hns, hout⟩ := Schemas.exists_of_encode_eq_ok encoded
  obtain rfl : ns = ms := Json.object.inj (Except.ok.inj (hns.symm.trans written))
  obtain rfl := Schemas.map_table table (hi.trans name)
  obtain ⟨w, hw, hnull⟩ := Schemas.encodeRecord_null_iff hout held value
  refine ⟨w, hw, hnull.trans (and_congr_right fun _ => ?_)⟩
  simp [Table.repetitions_map, Field.map]

/-- A pair of values, each of which is listed twice: the second line for the first value is
required, and the second line for the second value is not. -/
def pairOfAliases : Declaration :=
  ⟨"Pair", [⟨"first", "x", .any, false⟩, ⟨"second", "y", .any, true⟩,
    ⟨"primary", "x", .any, true⟩, ⟨"secondary", "y", .any, false⟩]⟩

/-- With `null`s, the first value of the pair is kept and the second one is lost. -/
theorem encoded_null_iff_pair :
    ∃ S out, resolve [pairOfAliases] = .ok S ∧ pairOfAliases ∈ [pairOfAliases] ∧
      S.encode ⟨"Pair", [], .ok, .ok⟩ (.object [("x", .boolean true), ("y", .boolean true)])
        .explicitNulls = .ok out ∧
      (∃ w, Members.get? "x" out = some w ∧ w ≠ .null) ∧
      ∃ w, Members.get? "y" out = some w ∧ w = .null := by
  have resolved : resolve [pairOfAliases] = .ok _ := rfl
  have listed : pairOfAliases ∈ [pairOfAliases] := List.mem_singleton.2 rfl
  have entry := fun key v => @encoded_null_iff [pairOfAliases] _ resolved pairOfAliases listed Json
    ⟨"Pair", [], .ok, .ok⟩ rfl (.object [("x", .boolean true), ("y", .boolean true)]) _ rfl
    .explicitNulls _ rfl key v
  obtain ⟨w, hw, hx⟩ := entry "x" (.boolean true) rfl (by decide)
  obtain ⟨w', hw', hy⟩ := entry "y" (.boolean true) rfl (by decide)
  refine ⟨_, _, resolved, listed, rfl, ⟨w, hw, fun hnull => ?_⟩, w', hw', ?_⟩
  · exact absurd (hx.1 hnull) (by decide)
  · exact hy.2 (by decide)

/-- So `null`s can overwrite a value: here the two lines for its key are not required. -/
theorem explicitNulls_overwrite_value :
    ∃ S, resolve [⟨"Root", [⟨"first", "x", .any, false⟩, ⟨"second", "x", .any, false⟩]⟩] = .ok S ∧
      S.encode ⟨"Root", [], .ok, .ok⟩ (.object [("x", .boolean true)]) .explicitNulls
        = .ok [("x", .null)] :=
  ⟨_, rfl, rfl⟩

end RecordSchema
