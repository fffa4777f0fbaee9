/-
# Normal forms of payloads

A table does not care about keys that it does not list, nor whether a field that is not
required is absent or `null`.  `Schemas.pruned` removes all of this from a payload, wherever
the descent along the tables meets a record, and `Schemas.filled` writes `null` for every
field that is absent.  Both keep the rest of the payload as it is, opaque objects included.

What the two have in common is that a record holds the same values for its fields afterwards,
up to the same change inside of them.  This is `Schemas.Transparent`, and it is all that
validation needs in order to find the same errors (`Transparent.check_eq`).
-/
import RecordSchema.Json.Equality
import RecordSchema.Proofs.Conformance
import RecordSchema.Proofs.Members

namespace RecordSchema

namespace Schemas

variable (S : Schemas)

/-! ## The two normal forms -/

mutual

/-- The value without the keys that a table does not list and without the `null`s of fields
that are not required. -/
def pruned (kind : Kind (Fin S.size)) : Json → Json
  | .object ms =>
    match kind with
    | .record i => .object (prunedMembers (S.table i) ms)
    | _ => .object ms
  | .array items =>
    match kind with
    | .array item => .array (prunedItems item items)
    | _ => .array items
  | v => v

/-- The items of an array, each of them pruned. -/
def prunedItems (kind : Kind (Fin S.size)) : List Json → List Json
  | [] => []
  | v :: rest => pruned kind v :: prunedItems kind rest

/-- The members of a record that its table has a use for, each of them pruned. -/
def prunedMembers (table : Table (Fin S.size)) : List (String × Json) → Members
  | [] => []
  | (key, v) :: rest =>
    match table.line? key with
    | some f =>
      if v = .null ∧ f.required = false then prunedMembers table rest
      else (key, pruned f.kind v) :: prunedMembers table rest
    | none => prunedMembers table rest

end

/-- The members with `null` for each field that is not required and has no key. -/
def withNulls (fields : List (Field (Fin S.size))) (ms : Members) : Members :=
  fields.foldl
    (fun ms f =>
      if f.required || Members.contains f.wire ms then ms else Members.insert f.wire .null ms) ms

mutual

/-- The value with `null` for each field that is not required and has no key. -/
def filled (kind : Kind (Fin S.size)) : Json → Json
  | .object ms =>
    match kind with
    | .record i => .object (S.withNulls (S.table i).fields (filledMembers (S.table i) ms))
    | _ => .object ms
  | .array items =>
    match kind with
    | .array item => .array (filledItems item items)
    | _ => .array items
  | v => v

/-- The items of an array, each of them filled. -/
def filledItems (kind : Kind (Fin S.size)) : List Json → List Json
  | [] => []
  | v :: rest => filled kind v :: filledItems kind rest

/-- The members of a record, each of them filled if the table lists its key. -/
def filledMembers (table : Table (Fin S.size)) : List (String × Json) → Members
  | [] => []
  | (key, v) :: rest =>
    match table.line? key with
    | some f => (key, filled f.kind v) :: filledMembers table rest
    | none => (key, v) :: filledMembers table rest

end

variable {S}

theorem prunedItems_eq (kind : Kind (Fin S.size)) (items : List Json) :
    S.prunedItems kind items = items.map (S.pruned kind) := by
  induction items with
  | nil => rw [prunedItems, List.map_nil]
  | cons v rest ih => rw [prunedItems, ih, List.map_cons]

theorem filledItems_eq (kind : Kind (Fin S.size)) (items : List Json) :
    S.filledItems kind items = items.map (S.filled kind) := by
  induction items with
  | nil => rw [filledItems, List.map_nil]
  | cons v rest ih => rw [filledItems, ih, List.map_cons]

theorem prunedMembers_eq (table : Table (Fin S.size)) (ms : Members) :
    S.prunedMembers table ms = Members.update
      (fun key v => (table.line? key).bind fun f =>
        if v = .null ∧ f.required = false then none else some (S.pruned f.kind v)) ms := by
  induction ms with
  | nil => rw [prunedMembers]; rfl
  | cons m rest ih =>
    obtain ⟨key, v⟩ := m
    rw [Members.update] at ih ⊢
    rw [prunedMembers, List.filterMap_cons, ih]
    cases table.line? key with
    | none => rfl
    | some f =>
      dsimp only [Option.bind_some]
      split <;> rfl

theorem filledMembers_eq (table : Table (Fin S.size)) (ms : Members) :
    S.filledMembers table ms = Members.update
      (fun key v => some ((table.line? key).elim v fun f => S.filled f.kind v)) ms := by
  induction ms with
  | nil => rw [filledMembers]; rfl
  | cons m rest ih =>
    obtain ⟨key, v⟩ := m
    rw [Members.update] at ih ⊢
    rw [filledMembers, List.filterMap_cons, ih]
    cases table.line? key <;> rfl

lemma pruned_of_flat {kind : Kind (Fin S.size)} {v : Json} (h : kind.opens v = false) :
    S.pruned kind v = v := by
  cases v <;> cases kind <;> simp_all [pruned, Kind.opens]

lemma filled_of_flat {kind : Kind (Fin S.size)} {v : Json} (h : kind.opens v = false) :
    S.filled kind v = v := by
  cases v <;> cases kind <;> simp_all [filled, Kind.opens]

lemma pruned_array (item : Kind (Fin S.size)) (items : List Json) :
    S.pruned (.array item) (.array items) = .array (items.map (S.pruned item)) := by
  rw [pruned, prunedItems_eq]

lemma filled_array (item : Kind (Fin S.size)) (items : List Json) :
    S.filled (.array item) (.array items) = .array (items.map (S.filled item)) := by
  rw [filled, filledItems_eq]

/-! ## Looking up in a normal form -/

/-- The table of a record lists no key twice, and its members are in ascending order. -/
structure Regular (S : Schemas) (i : Fin S.size) (ms : Members) : Prop where
  distinct : (S.table i).wires.Nodup
  ascending : ms.Ascending

variable {i : Fin S.size} {ms : Members}

theorem get?_prunedMembers (hnd : (Members.keys ms).Nodup) (table : Table (Fin S.size))
    (key : String) :
    Members.get? key (S.prunedMembers table ms) =
      (table.line? key).bind fun f => (f.held? ms).map (S.pruned f.kind) := by
  rw [prunedMembers_eq, Members.get?_update hnd]
  cases hline : table.line? key with
  | none => cases Members.get? key ms <;> rfl
  | some f =>
    obtain ⟨-, rfl⟩ := Table.mem_of_line? hline
    rw [Option.bind_some]
    cases hheld : f.held? ms with
    | some v =>
      obtain ⟨hget, hnull⟩ := Field.held?_eq_some_iff.1 hheld
      simpa [hget] using hnull
    | none =>
      rcases Field.held?_eq_none_iff.1 hheld with hget | ⟨hoptional, hget⟩
      · simp [hget]
      · simp [hget, hoptional]

lemma get?_withNulls (fields : List (Field (Fin S.size))) (ms : Members) (key : String) :
    Members.get? key (S.withNulls fields ms) =
      (Members.get? key ms).or
        (if fields.any fun f => f.wire == key && !f.required then some .null else none) := by
  unfold withNulls
  induction fields generalizing ms with
  | nil => simp
  | cons f rest ih =>
    rw [List.foldl_cons, ih]
    by_cases hkeep : (f.required || Members.contains f.wire ms) = true
    · rw [if_pos hkeep]
      by_cases hkey : f.wire = key
      · subst hkey
        rw [Members.contains, Bool.or_eq_true] at hkeep
        rcases hkeep with hrequired | hfound
        · simp [hrequired]
        · obtain ⟨v, hv⟩ := Option.isSome_iff_exists.1 hfound
          simp [hv]
      · simp [hkey]
    · rw [if_neg hkeep, Members.get?_insert]
      rw [Members.contains, Bool.or_eq_true, not_or, Bool.not_eq_true, Bool.not_eq_true,
        Option.isSome_eq_false_iff, Option.isNone_iff_eq_none] at hkeep
      by_cases hkey : f.wire = key
      · subst hkey
        simp [hkeep.1, hkeep.2]
      · simp [hkey]

/-- In a table that lists no key twice, the line of a key decides whether `null` is written. -/
theorem get?_withNulls_of_distinct {table : Table (Fin S.size)} (hnd : table.wires.Nodup)
    (ms : Members) (key : String) :
    Members.get? key (S.withNulls table.fields ms) =
      (Members.get? key ms).or
        ((table.line? key).bind fun f => if f.required then none else some .null) := by
  rw [get?_withNulls]
  congr 1
  cases hline : table.line? key with
  | none =>
    rw [Table.line?_eq_none_iff] at hline
    refine if_neg fun hany => hline ?_
    obtain ⟨f, hf, hkey⟩ := List.any_eq_true.1 hany
    rw [Bool.and_eq_true, beq_iff_eq] at hkey
    exact List.mem_map.2 ⟨f, hf, hkey.1⟩
  | some f =>
    obtain ⟨hf, rfl⟩ := Table.mem_of_line? hline
    rw [Option.bind_some]
    cases hrequired : f.required with
    | false => exact if_pos (List.any_eq_true.2 ⟨f, hf, by simp [hrequired]⟩)
    | true =>
      refine if_neg fun hany => ?_
      obtain ⟨g, hg, hkey⟩ := List.any_eq_true.1 hany
      rw [Bool.and_eq_true, beq_iff_eq] at hkey
      have hsame := Table.line?_of_mem hnd hg
      rw [hkey.1, hline, Option.some.injEq] at hsame
      simp [← hsame, hrequired] at hkey

lemma ascending_withNulls (fields : List (Field (Fin S.size))) (h : ms.Ascending) :
    (S.withNulls fields ms).Ascending := by
  unfold withNulls
  induction fields generalizing ms with
  | nil => exact h
  | cons f rest ih =>
    rw [List.foldl_cons]
    split
    · exact ih h
    · exact ih (Members.ascending_insert _ _ h)

/-! ## Transparent changes -/

/-- A change of values that no table notices: what a record holds for its fields and what an
array holds for its items are changed in the same way, and everything else is kept. -/
structure Transparent (S : Schemas) (change : Kind (Fin S.size) → Json → Json) : Prop where
  flat : ∀ kind v, kind.opens v = false → change kind v = v
  array : ∀ item items, change (.array item) (.array items) = .array (items.map (change item))
  record : ∀ i ms, S.Regular i ms → ∃ ns, change (.record i) (.object ms) = .object ns ∧
    ∀ f ∈ (S.table i).fields, f.held? ns = (f.held? ms).map (change f.kind)

namespace Transparent

variable {change : Kind (Fin S.size) → Json → Json}

/-- Validation finds the same errors after a transparent change. -/
theorem check_eq (hchange : S.Transparent change) {kind : Kind (Fin S.size)} {v : Json}
    (hregular : S.EachRecord S.Regular kind v) :
    S.check kind (change kind v) = S.check kind v := by
  induction kind, v using descend with
  | flat kind v hflat => rw [hchange.flat kind v hflat]
  | array item items ih =>
    rw [eachRecord_array_iff] at hregular
    rw [hchange.array, check_array, check_array, List.zipIdx_map, List.flatMap_map]
    refine List.flatMap_congr fun m hm => ?_
    have hmem : m.1 ∈ items := List.fst_mem_of_mem_zipIdx hm
    simp only [Prod.map_fst, Prod.map_snd, id_eq]
    rw [ih m.1 hmem (hregular m.1 hmem)]
  | record i ms ih =>
    obtain ⟨hhere, hinside⟩ := eachRecord_record_iff.1 hregular
    obtain ⟨ns, hns, hheld⟩ := hchange.record i ms hhere
    -- The same keys are missing, since a required field holds whatever stands under its key.
    have hmissing : S.missingFields (S.table i).fields ns
        = S.missingFields (S.table i).fields ms := by
      unfold missingFields
      refine congrArg (List.map _) (List.filter_congr fun f hf => ?_)
      cases hrequired : f.required with
      | false => rfl
      | true =>
        have hget := hheld f hf
        rw [Field.held?_of_required hrequired, Field.held?_of_required hrequired] at hget
        simp [Members.contains, hget]
    have hfields : ∀ f ∈ (S.table i).fields, S.checkField f ns = S.checkField f ms := by
      intro f hf
      unfold checkField
      rw [hheld f hf]
      cases hv : f.held? ms with
      | none => rfl
      | some v =>
        rw [Option.map_some]
        dsimp only
        rw [ih f hf v hv (hinside f hf v hv)]
    rw [hns, check_record, check_record, hmissing, List.flatMap_congr hfields]

/-- One transparent change after another is transparent, if the first one keeps the members of a
record in order. -/
lemma comp {again : Kind (Fin S.size) → Json → Json} (hagain : S.Transparent again)
    (hchange : S.Transparent change) (hkeep : ∀ i ms ns, S.Regular i ms →
      change (.record i) (.object ms) = .object ns → S.Regular i ns) :
    S.Transparent fun kind v => again kind (change kind v) where
  flat kind v h := by rw [hchange.flat kind v h, hagain.flat kind v h]
  array item items := by
    rw [hchange.array, hagain.array, List.map_map]
    rfl
  record i ms h := by
    obtain ⟨ns, hns, hheld⟩ := hchange.record i ms h
    obtain ⟨ns', hns', hheld'⟩ := hagain.record i ns (hkeep i ms ns h hns)
    refine ⟨ns', by rw [hns, hns'], fun f hf => ?_⟩
    rw [hheld' f hf, hheld f hf, Option.map_map]
    rfl

/-- What holds of the members that a transparent change gives to each record, holds wherever the
descent meets a record afterwards. -/
theorem eachRecord (hchange : S.Transparent change) {P : Fin S.size → Members → Prop}
    (hrecord : ∀ i ms ns, S.Regular i ms → change (.record i) (.object ms) = .object ns → P i ns)
    {kind : Kind (Fin S.size)} {v : Json} (hregular : S.EachRecord S.Regular kind v) :
    S.EachRecord P kind (change kind v) := by
  induction kind, v using descend with
  | flat kind v hflat =>
    rw [hchange.flat kind v hflat]
    exact eachRecord_of_flat hflat
  | array item items ih =>
    rw [eachRecord_array_iff] at hregular
    rw [hchange.array, eachRecord_array_iff]
    intro w hw
    obtain ⟨v, hv, rfl⟩ := List.mem_map.1 hw
    exact ih v hv (hregular v hv)
  | record i ms ih =>
    obtain ⟨hhere, hinside⟩ := eachRecord_record_iff.1 hregular
    obtain ⟨ns, hns, hheld⟩ := hchange.record i ms hhere
    rw [hns, eachRecord_record_iff]
    refine ⟨hrecord i ms ns hhere hns, fun f hf w hw => ?_⟩
    rw [hheld f hf] at hw
    obtain ⟨v, hv, rfl⟩ := Option.map_eq_some_iff.1 hw
    exact ih f hf v hv (hinside f hf v hv)

end Transparent

lemma pruned_ne_null {kind : Kind (Fin S.size)} {v : Json} (h : v ≠ .null) :
    S.pruned kind v ≠ .null := by
  cases v <;> cases kind <;> simp_all [pruned]

lemma filled_ne_null {kind : Kind (Fin S.size)} {v : Json} (h : v ≠ .null) :
    S.filled kind v ≠ .null := by
  cases v <;> cases kind <;> simp_all [filled]

lemma held?_prunedMembers (h : S.Regular i ms) {f : Field (Fin S.size)}
    (hf : f ∈ (S.table i).fields) :
    f.held? (S.prunedMembers (S.table i) ms) = (f.held? ms).map (S.pruned f.kind) := by
  have hget := get?_prunedMembers h.ascending.nodup_keys (S.table i) f.wire
  rw [Table.line?_of_mem h.distinct hf, Option.bind_some] at hget
  cases hheld : f.held? ms with
  | none =>
    rw [hheld] at hget
    exact Field.held?_eq_none_iff.2 (.inl hget)
  | some v =>
    rw [hheld] at hget
    refine Field.held?_eq_some_iff.2 ⟨hget, fun hnull => ?_⟩
    by_cases hv : v = .null
    · exact (Field.held?_eq_some_iff.1 hheld).2 hv
    · exact absurd hnull (pruned_ne_null hv)

lemma get?_filledMembers (h : S.Regular i ms) {f : Field (Fin S.size)}
    (hf : f ∈ (S.table i).fields) :
    Members.get? f.wire (S.filledMembers (S.table i) ms)
      = (Members.get? f.wire ms).map (S.filled f.kind) := by
  rw [filledMembers_eq, Members.get?_update h.ascending.nodup_keys,
    Table.line?_of_mem h.distinct hf]
  cases Members.get? f.wire ms <;> rfl

lemma ascending_prunedMembers (h : ms.Ascending) (table : Table (Fin S.size)) :
    (S.prunedMembers table ms).Ascending := by
  rw [prunedMembers_eq]
  exact Members.ascending_update h

lemma ascending_filledMembers (h : ms.Ascending) (table : Table (Fin S.size)) :
    (S.filledMembers table ms).Ascending := by
  rw [filledMembers_eq]
  exact Members.ascending_update h

lemma held?_filled (h : S.Regular i ms) {f : Field (Fin S.size)}
    (hf : f ∈ (S.table i).fields) :
    f.held? (S.withNulls (S.table i).fields (S.filledMembers (S.table i) ms))
      = (f.held? ms).map (S.filled f.kind) := by
  have hget := get?_withNulls_of_distinct h.distinct (S.filledMembers (S.table i) ms) f.wire
  rw [get?_filledMembers h hf, Table.line?_of_mem h.distinct hf, Option.bind_some] at hget
  cases hheld : f.held? ms with
  | some v =>
    -- A value that counts is kept and only filled inside, so it still counts.
    obtain ⟨hv, hnull⟩ := Field.held?_eq_some_iff.1 hheld
    rw [hv, Option.map_some, Option.some_or] at hget
    refine Field.held?_eq_some_iff.2 ⟨hget, fun hfilled => ?_⟩
    by_cases hv' : v = .null
    · exact hnull hv'
    · exact absurd hfilled (filled_ne_null hv')
  | none =>
    -- Without one there is afterwards either no key or the `null` that was put in.
    rcases Field.held?_eq_none_iff.1 hheld with hnone | ⟨hoptional, hnull⟩
    · rw [hnone, Option.map_none, Option.none_or] at hget
      cases hrequired : f.required with
      | true =>
        rw [if_pos hrequired] at hget
        exact Field.held?_eq_none_iff.2 (.inl hget)
      | false =>
        rw [if_neg (by simp [hrequired])] at hget
        exact Field.held?_eq_none_iff.2 (.inr ⟨hrequired, hget⟩)
    · rw [hnull, Option.map_some, Option.some_or, filled_of_flat (by cases f.kind <;> rfl)] at hget
      exact Field.held?_eq_none_iff.2 (.inr ⟨hoptional, hget⟩)

theorem transparent_pruned (S : Schemas) : S.Transparent S.pruned where
  flat _ _ h := pruned_of_flat h
  array := pruned_array
  record i ms h := ⟨_, by rw [pruned], fun _ hf => held?_prunedMembers h hf⟩

theorem transparent_filled (S : Schemas) : S.Transparent S.filled where
  flat _ _ h := filled_of_flat h
  array := filled_array
  record i ms h := ⟨_, by rw [filled], fun _ hf => held?_filled h hf⟩

/-! ## Normal forms of normal forms -/

lemma regular_of_pruned_eq {ns : Members} (h : S.Regular i ms)
    (hns : S.pruned (.record i) (.object ms) = .object ns) : S.Regular i ns := by
  rw [pruned] at hns
  obtain rfl := Json.object.inj hns
  exact ⟨h.distinct, ascending_prunedMembers h.ascending _⟩

lemma eachRecord_regular_pruned {kind : Kind (Fin S.size)} {v : Json}
    (h : S.EachRecord S.Regular kind v) : S.EachRecord S.Regular kind (S.pruned kind v) :=
  S.transparent_pruned.eachRecord (fun _ _ _ => regular_of_pruned_eq) h

/-- A transparent change that keeps members in order makes no difference to what is left after
pruning. -/
theorem Transparent.pruned_eq {change : Kind (Fin S.size) → Json → Json}
    (hchange : S.Transparent change) {kind : Kind (Fin S.size)} {v : Json}
    (h : S.EachRecord S.Regular kind v) (h' : S.EachRecord S.Regular kind (change kind v)) :
    S.pruned kind (change kind v) = S.pruned kind v := by
  induction kind, v using descend with
  | flat kind v hflat => rw [hchange.flat kind v hflat]
  | array item items ih =>
    rw [eachRecord_array_iff] at h
    rw [hchange.array, eachRecord_array_iff] at h'
    rw [hchange.array, pruned_array, pruned_array, List.map_map]
    refine congrArg Json.array (List.map_congr_left fun v hv => ?_)
    exact ih v hv (h v hv) (h' _ (List.mem_map.2 ⟨v, hv, rfl⟩))
  | record i ms ih =>
    obtain ⟨hhere, hinside⟩ := eachRecord_record_iff.1 h
    obtain ⟨ns, hns, hheld⟩ := hchange.record i ms hhere
    rw [hns] at h'
    obtain ⟨hhere', hinside'⟩ := eachRecord_record_iff.1 h'
    rw [hns, pruned, pruned]
    refine congrArg Json.object (Members.ext_get? (ascending_prunedMembers hhere'.ascending _)
      (ascending_prunedMembers hhere.ascending _) fun key => ?_)
    rw [get?_prunedMembers hhere'.ascending.nodup_keys,
      get?_prunedMembers hhere.ascending.nodup_keys]
    cases hline : (S.table i).line? key with
    | none => rfl
    | some f =>
      have hf := (Table.mem_of_line? hline).1
      have hnew := hheld f hf
      rw [Option.bind_some, Option.bind_some, hnew]
      cases hv : f.held? ms with
      | none => rfl
      | some v =>
        rw [hv, Option.map_some] at hnew
        exact congrArg some (ih f hf v hv (hinside f hf v hv) (hinside' f hf _ hnew))

/-- Nothing is left to remove after pruning. -/
theorem pruned_pruned {kind : Kind (Fin S.size)} {v : Json}
    (h : S.EachRecord S.Regular kind v) :
    S.pruned kind (S.pruned kind v) = S.pruned kind v :=
  S.transparent_pruned.pruned_eq h (eachRecord_regular_pruned h)

end Schemas

end RecordSchema
