/-
# The order of errors

The paths of two errors part somewhere, at a value that the declarations look at: none of them
is a beginning of the other.  If they part at an array, the error of the earlier item comes
first.  If they part at a record, keys that the record itself lacks come before everything else,
and otherwise the field that stands earlier in its table comes first.  This is `Precedes`.

`validate_ordered` says that validation reports errors in this order, which leaves no choice,
and that a record that is not constructed is refused with the least of all violations.
-/
import RecordSchema.Proofs.Violation
import RecordSchema.Record

namespace RecordSchema

/-! ## Where paths part -/

/-- Two paths have the beginning `q` in common, and then one goes on by `s` and the other
by `t`. -/
structure Path.Part (a b q : Path) (s t : Segment) : Prop where
  left : q ++ [s] <+: a
  right : q ++ [t] <+: b
  differ : s ≠ t

namespace Path.Part

variable {a b q r : Path} {s t s' t' : Segment}

lemma symm (h : Part a b q s t) : Part b a q t s := ⟨h.right, h.left, h.differ.symm⟩

/-- Beyond the place where they part, paths have nothing in common. -/
lemma length_le (h : Part a b q s t) (hra : r <+: a) (hrb : r <+: b) : r.length ≤ q.length := by
  by_contra hlt
  have hlen : (q ++ [s]).length ≤ r.length := by simp; omega
  have hs : q ++ [s] <+: b := (List.prefix_of_prefix_length_le h.left hra hlen).trans hrb
  have hst : q ++ [s] = q ++ [t] :=
    (List.prefix_of_prefix_length_le hs h.right (by simp)).eq_of_length (by simp)
  exact h.differ (by simpa using hst)

lemma not_prefix (h : Part a b q s t) : ¬ a <+: b := by
  intro hab
  have hlen := h.length_le h.left (h.left.trans hab)
  rw [List.length_append, List.length_singleton] at hlen
  omega

/-- There is one place only where two paths part. -/
lemma unique (h : Part a b q s t) (h' : Part a b r s' t') : q = r ∧ s = s' ∧ t = t' := by
  have hlen : q.length = r.length :=
    Nat.le_antisymm
      (h'.length_le ((List.prefix_append q [s]).trans h.left)
        ((List.prefix_append q [t]).trans h.right))
      (h.length_le ((List.prefix_append r [s']).trans h'.left)
        ((List.prefix_append r [t']).trans h'.right))
  have hleft : q ++ [s] = r ++ [s'] :=
    (List.prefix_of_prefix_length_le h.left h'.left (by simp [hlen])).eq_of_length (by simp [hlen])
  have hright : q ++ [t] = r ++ [t'] :=
    (List.prefix_of_prefix_length_le h.right h'.right (by simp [hlen])).eq_of_length
      (by simp [hlen])
  obtain ⟨rfl, hs⟩ := List.append_inj hleft hlen
  exact ⟨rfl, by simpa using hs, by simpa using hright⟩

/-- Paths with a common beginning part where they go on differently. -/
lemma of_append (hne : s ≠ t) (p a b : Path) : Part (p ++ s :: a) (p ++ t :: b) p s t :=
  ⟨⟨a, by simp⟩, ⟨b, by simp⟩, hne⟩

/-- If one path goes on to an earlier item than another, the other one does not. -/
lemma index_asymm {m n m' n' : Nat} (h : Part a b q (.index m) (.index n)) (hmn : m < n)
    (h' : Part b a r (.index m') (.index n')) : ¬ m' < n' := by
  obtain ⟨-, hm, hn⟩ := h.unique h'.symm
  obtain rfl := Segment.index.inj hm
  obtain rfl := Segment.index.inj hn
  omega

end Path.Part

/-! ## Precedence -/

/-- An error is that of a key which the object at a path lacks. -/
def ValidationError.MissingAt (q : Path) (e : ValidationError) : Prop :=
  ∃ key, e = .missing (q.key key)

/-- One error comes before another, by the place where their paths part. -/
inductive Precedes (declared : List Declaration) (record : String) (payload : Json)
    (e e' : ValidationError) : Prop
  /-- In an array, by position. -/
  | item {q : Path} {item : Kind String} {items : List Json} {m n : Nat}
      (position : Position declared record payload q (.array item) (.array items))
      (part : Path.Part e.path e'.path q (.index m) (.index n)) (order : m < n)
  /-- In a record, the keys that the record itself lacks come first. -/
  | missing {q : Path} {target : String} {ms : Members} {k l : String}
      (position : Position declared record payload q (.record target) (.object ms))
      (part : Path.Part e.path e'.path q (.key k) (.key l))
      (first : e.MissingAt q) (second : ¬ e'.MissingAt q)
  /-- In a record, and if this does not tell them apart, by the order of the table. -/
  | field {q : Path} {d : Declaration} {ms : Members} {k l : String}
      (position : Position declared record payload q (.record d.name) (.object ms))
      (table : d ∈ declared) (part : Path.Part e.path e'.path q (.key k) (.key l))
      (alike : e.MissingAt q ↔ e'.MissingAt q) (order : d.wires.idxOf k < d.wires.idxOf l)

lemma Precedes.exists_part {declared : List Declaration} {record : String} {payload : Json}
    {e e' : ValidationError} (h : Precedes declared record payload e e') :
    ∃ q s t, Path.Part e.path e'.path q s t := by
  cases h with
  | item _ part _ => exact ⟨_, _, _, part⟩
  | missing _ part _ _ => exact ⟨_, _, _, part⟩
  | field _ _ part _ _ => exact ⟨_, _, _, part⟩

/-! ## Precedence is an order -/

namespace Schemas

variable {S : Schemas} {i : Fin S.size} {payload v w w' : Json} {p : Path}
  {kind kind' kind'' : Kind (Fin S.size)}

/-- If no table lists a key twice, a path leads to one value of one kind. -/
lemma Located.unique (distinct : ∀ j, (S.table j).wires.Nodup) (h : S.Located kind v p kind' w)
    (h' : S.Located kind v p kind'' w') : kind' = kind'' ∧ w = w' := by
  induction h with
  | here =>
    cases h'
    exact ⟨rfl, rfl⟩
  | @member j ms f u w q kind field held inside ih =>
    generalize hwire : Segment.key f.wire = s at h'
    cases h' with
    | @member _ _ g u' _ _ _ field' held' inside' =>
      obtain rfl := Table.eq_of_wire_eq (distinct j) field field' (Segment.key.inj hwire)
      obtain rfl := Option.some.inj (held.symm.trans held')
      exact ih inside'
  | item found inside ih =>
    cases h' with
    | item found' inside' =>
      obtain rfl := Option.some.inj (found.symm.trans found')
      exact ih inside'

lemma position_unique (distinct : ∀ j, (S.table j).wires.Nodup) {k k' : Kind String}
    (h : Position S.declarations (S.nameOf i) payload p k w)
    (h' : Position S.declarations (S.nameOf i) payload p k' w') : k = k' ∧ w = w' := by
  obtain ⟨kind, rfl, hlocated⟩ := position_iff_located.1 h
  obtain ⟨kind', rfl, hlocated'⟩ := position_iff_located.1 h'
  obtain ⟨rfl, rfl⟩ := hlocated.unique distinct hlocated'
  exact ⟨rfl, rfl⟩

/-- The records of a set have different names. -/
lemma eq_of_name_eq {d d' : Declaration} (hd : d ∈ S.declarations) (hd' : d' ∈ S.declarations)
    (hname : d.name = d'.name) : d = d' := by
  obtain ⟨j, hj⟩ := exists_nameOf (List.mem_map.2 ⟨d, hd, rfl⟩)
  exact (map_table hd hj).symm.trans (map_table hd' (hj.trans hname))

/-- If one path goes on to an earlier field of a record than another, the other one does not. -/
lemma key_asymm (distinct : ∀ j, (S.table j).wires.Nodup) {a b q r : Path} {k l k' l' : String}
    {d d' : Declaration} {ms ms' : Members}
    (hq : Position S.declarations (S.nameOf i) payload q (.record d.name) (.object ms))
    (hd : d ∈ S.declarations) (h : Path.Part a b q (.key k) (.key l))
    (hkl : d.wires.idxOf k < d.wires.idxOf l)
    (hr : Position S.declarations (S.nameOf i) payload r (.record d'.name) (.object ms'))
    (hd' : d' ∈ S.declarations) (h' : Path.Part b a r (.key k') (.key l')) :
    ¬ d'.wires.idxOf k' < d'.wires.idxOf l' := by
  obtain ⟨rfl, hk, hl⟩ := h.unique h'.symm
  obtain rfl := Segment.key.inj hk
  obtain rfl := Segment.key.inj hl
  -- There is only one value to look at, and it should be only one record.
  obtain ⟨hkind, -⟩ := position_unique distinct hq hr
  obtain rfl := eq_of_name_eq hd hd' (Kind.record.inj hkind)
  omega

/-- Of two errors, at most one comes before the other. -/
theorem precedes_asymm (distinct : ∀ j, (S.table j).wires.Nodup) {e e' : ValidationError}
    (h : Precedes S.declarations (S.nameOf i) payload e e') :
    ¬ Precedes S.declarations (S.nameOf i) payload e' e := by
  intro h'
  -- Both ways round, the paths part at the same place.
  cases h with
  | item position part order =>
    cases h' with
    | item position' part' order' => exact part.index_asymm order part' order'
    | missing position' part' _ _ =>
      exact absurd (part.unique part'.symm).2.1 (by simp)
    | field position' _ part' _ _ =>
      exact absurd (part.unique part'.symm).2.1 (by simp)
  | missing position part first second =>
    cases h' with
    | item position' part' order' => exact absurd (part.unique part'.symm).2.1 (by simp)
    | missing position' part' first' _ =>
      obtain ⟨rfl, -⟩ := part.unique part'.symm
      exact second first'
    | field position' _ part' alike _ =>
      obtain ⟨rfl, -⟩ := part.unique part'.symm
      exact second (alike.2 first)
  | field position table part alike order =>
    cases h' with
    | item position' part' order' => exact absurd (part.unique part'.symm).2.1 (by simp)
    | missing position' part' first' second' =>
      obtain ⟨rfl, -⟩ := part.unique part'.symm
      exact second' (alike.2 first')
    | field position' table' part' _ order' =>
      exact key_asymm distinct position table part order position' table' part' order'

/-! ## Errors come in order -/

variable {e e' : ValidationError}

/-- The errors of a record for the keys that it lacks are those at the record itself. -/
lemma path_ne_root_of_missing (he : e ∈ S.check kind v) (hmissing : e.reason = .missing) :
    e.path ≠ .root := by
  cases hopens : kind.opens v with
  | false =>
    rcases (mem_check_of_flat hopens).1 he with ⟨-, rfl⟩ | ⟨literals, s, -, -, -, rfl⟩
    · cases hmissing
    · cases hmissing
  | true =>
    match kind, v with
    | .array item, .array items =>
      obtain ⟨n, u, -, e', -, rfl⟩ := mem_check_array_iff.1 he
      exact List.cons_ne_nil _ _
    | .record j, .object ms =>
      rcases mem_check_record_iff.1 he with hfield | ⟨f, -, hfield⟩
      · obtain ⟨f, -, -, -, rfl⟩ := mem_missingFields_iff.1 hfield
        exact List.cons_ne_nil _ _
      · obtain ⟨u, -, e', -, rfl⟩ := mem_checkField_iff.1 hfield
        exact List.cons_ne_nil _ _

lemma part_along (e e' : ValidationError) {s t : Segment} (hne : s ≠ t) :
    Path.Part ((e.under s).along p).path ((e'.under t).along p).path p s t :=
  .of_append hne p e.path e'.path

/-- No error inside of a field is that of a missing key of the record. -/
lemma not_missingAt_of_mem_checkField {f : Field (Fin S.size)} {ms : Members}
    (he : e ∈ S.checkField f ms) : ¬ (e.along p).MissingAt p := by
  obtain ⟨u, -, e', he', rfl⟩ := mem_checkField_iff.1 he
  rintro ⟨key, hkey⟩
  obtain ⟨hpath, hreason⟩ := ValidationError.mk.inj hkey
  refine path_ne_root_of_missing he' hreason ?_
  have hlen := congrArg List.length hpath
  simp [Path.key] at hlen
  exact hlen

lemma pairwise_check_of_flat {R : ValidationError → ValidationError → Prop}
    (hflat : kind.opens v = false) : (S.check kind v).Pairwise R := by
  rcases check_eq_nil_or_singleton hflat with hnil | ⟨reason, hsingle⟩
  · rw [hnil]
    exact .nil
  · rw [hsingle]
    exact List.pairwise_singleton R _

lemma pairwise_snd_zipIdx {α : Type} (xs : List α) :
    xs.zipIdx.Pairwise fun a b => a.2 < b.2 := by
  rw [List.pairwise_iff_getElem]
  intro m n hm hn hmn
  simpa using hmn

/-- The fields of a table that lists no key twice stand in the order of their keys. -/
lemma pairwise_idxOf_wire {ρ : Type} {table : Table ρ} (distinct : table.wires.Nodup) :
    table.fields.Pairwise fun f g =>
      table.wires.idxOf f.wire < table.wires.idxOf g.wire := by
  rw [List.pairwise_iff_getElem]
  intro m n hm hn hmn
  have hidx : ∀ k (hk : k < table.fields.length), table.wires.idxOf table.fields[k].wire = k := by
    intro k hk
    have hk' : k < table.wires.length := by simpa [Table.wires] using hk
    simpa [Table.wires] using distinct.idxOf_getElem k hk'
  rwa [hidx m hm, hidx n hn]

lemma key_ne_of_idxOf_lt {keys : List String} {k l : String}
    (h : keys.idxOf k < keys.idxOf l) : Segment.key k ≠ .key l := by
  intro hsame
  rw [Segment.key.inj hsame] at h
  omega

/-- The errors of a value at a position come in order. -/
theorem pairwise_check (distinct : ∀ j, (S.table j).wires.Nodup)
    (hp : Position S.declarations (S.nameOf i) payload p (kind.map S.nameOf) v) :
    (S.check kind v).Pairwise fun e e' =>
      Precedes S.declarations (S.nameOf i) payload (e.along p) (e'.along p) := by
  induction kind, v using descend generalizing p with
  | flat kind v hflat => exact pairwise_check_of_flat hflat
  | array item items ih =>
    rw [check_array, List.pairwise_flatMap]
    refine ⟨fun m hm => ?_, (pairwise_snd_zipIdx items).imp fun {m n} hmn => ?_⟩
    · obtain ⟨w, n⟩ := m
      have hw : items[n]? = some w := List.mk_mem_zipIdx_iff_getElem?.1 hm
      rw [List.pairwise_map]
      refine (ih w (List.mem_of_getElem? hw) (.item hp hw)).imp fun h => ?_
      simpa [ValidationError.along, Path.index] using h
    · rintro e he e' he'
      obtain ⟨e, -, rfl⟩ := List.mem_map.1 he
      obtain ⟨e', -, rfl⟩ := List.mem_map.1 he'
      exact .item hp (part_along e e' (by simpa using Nat.ne_of_lt hmn)) hmn
  | record j ms ih =>
    have htable := S.map_table_mem j
    have hfields := pairwise_idxOf_wire (distinct j)
    rw [check_record, List.pairwise_append, List.pairwise_flatMap]
    refine ⟨?_, ⟨fun f hf => ?_, hfields.imp fun {f g} hfg e he e' he' => ?_⟩,
      fun e he e' he' => ?_⟩
    · -- Two keys are missing.
      rw [missingFields, List.pairwise_map]
      refine (hfields.filter _).imp fun {f g} hfg => ?_
      have hpart := part_along (p := p) ⟨.root, .missing⟩ ⟨.root, .missing⟩ (key_ne_of_idxOf_lt hfg)
      exact .field hp htable hpart ⟨fun _ => ⟨_, rfl⟩, fun _ => ⟨_, rfl⟩⟩ (by simpa using hfg)
    · -- Both errors are inside of one field.
      unfold checkField
      cases hw : f.held? ms with
      | none => exact .nil
      | some w =>
        have hstep := (Located.member hf hw (.here _ _)).position hp
        rw [List.pairwise_map]
        refine (ih f hf w hw hstep).imp fun h => ?_
        simpa [ValidationError.along] using h
    · -- They are inside of different fields.
      have hfirst := not_missingAt_of_mem_checkField (p := p) he
      have hsecond := not_missingAt_of_mem_checkField (p := p) he'
      obtain ⟨-, -, e, -, rfl⟩ := mem_checkField_iff.1 he
      obtain ⟨-, -, e', -, rfl⟩ := mem_checkField_iff.1 he'
      exact .field hp htable (part_along e e' (key_ne_of_idxOf_lt hfg))
        ⟨fun h => absurd h hfirst, fun h => absurd h hsecond⟩ (by simpa using hfg)
    · -- A key is missing, and the other error is inside of a field.
      obtain ⟨g, -, hg⟩ := List.mem_flatMap.1 he'
      have hsecond := not_missingAt_of_mem_checkField (p := p) hg
      obtain ⟨f, -, -, habsent, rfl⟩ := mem_missingFields_iff.1 he
      obtain ⟨w, hw, e', -, rfl⟩ := mem_checkField_iff.1 hg
      have hne : Segment.key f.wire ≠ .key g.wire := by
        intro hsame
        rw [Segment.key.inj hsame, Field.get?_of_held? hw] at habsent
        cases habsent
      exact .missing hp (part_along ⟨.root, .missing⟩ e' hne) ⟨f.wire, rfl⟩ hsecond

/-- The errors of a payload that should be a record come in order. -/
theorem pairwise_checkRecord (distinct : ∀ j, (S.table j).wires.Nodup) :
    (S.checkRecord i payload).Pairwise (Precedes S.declarations (S.nameOf i) payload) := by
  cases payload with
  | object ms =>
    have hroot : Position S.declarations (S.nameOf i) (.object ms) .root
        ((Kind.record i).map S.nameOf) (.object ms) := .root
    exact pairwise_check distinct hroot
  | _ => exact List.pairwise_singleton _ _

/-- No two errors have one path. -/
lemma nodup_paths_checkRecord (distinct : ∀ j, (S.table j).wires.Nodup) :
    ((S.checkRecord i payload).map ValidationError.path).Nodup := by
  refine List.pairwise_map.2 ((pairwise_checkRecord distinct).imp fun {e e'} h hpath => ?_)
  obtain ⟨q, s, t, hpart⟩ := h.exists_part
  exact hpart.not_prefix (hpath ▸ List.prefix_refl e.path)

/-- Construction fails with the first error, if there is any. -/
lemma construct_of_checkRecord_eq_cons {α : Type} {R : RecordType α} (hi : S.nameOf i = R.name)
    {rest : List ValidationError} (h : S.checkRecord i payload = e :: rest) :
    S.construct R payload = .ok (.error e) := by
  rw [construct, validate_eq hi, h]
  rfl

end Schemas

/-- In a set where no table lists a key twice, errors come in order, so that none of their paths
is a beginning of another one; and construction fails with the least violation. -/
theorem validate_ordered {declared : List Declaration} {S : Schemas} {record : String}
    (resolved : resolve declared = .ok S) (distinct : ∀ d ∈ declared, d.wires.Nodup)
    (known : record ∈ declared.map Table.name) (payload : Json) :
    ∃ errors, S.validate record payload = .ok errors ∧
      (errors.Pairwise fun e e' => ¬ e.path <+: e'.path ∧ ¬ e'.path <+: e.path) ∧
      errors.Pairwise (Precedes declared record payload) ∧
      (∀ e e', Precedes declared record payload e e' →
        ¬ Precedes declared record payload e' e) ∧
      ∀ {α : Type} (R : RecordType α), R.name = record → errors ≠ [] →
        ∃ e, S.construct R payload = .ok (.error e) ∧
          Violation declared record payload e.path e.reason ∧
          ∀ e', Violation declared record payload e'.path e'.reason → e' ≠ e →
            Precedes declared record payload e e' := by
  obtain rfl := declarations_of_resolve resolved
  obtain ⟨i, rfl⟩ := Schemas.exists_nameOf known
  have hwires : ∀ j, (S.table j).wires.Nodup := fun j => by
    simpa using distinct _ (S.map_table_mem j)
  have hordered : (S.checkRecord i payload).Pairwise
      (Precedes S.declarations (S.nameOf i) payload) := Schemas.pairwise_checkRecord hwires
  refine ⟨_, Schemas.validate_eq rfl payload, hordered.imp fun h => ?_, hordered,
    fun _ _ => Schemas.precedes_asymm hwires, fun R hR hne => ?_⟩
  · obtain ⟨q, s, t, hpart⟩ := h.exists_part
    exact ⟨hpart.not_prefix, hpart.symm.not_prefix⟩
  · obtain ⟨e, rest, herrors⟩ := List.exists_cons_of_ne_nil hne
    refine ⟨e, Schemas.construct_of_checkRecord_eq_cons hR.symm herrors,
      Schemas.mem_checkRecord_iff.1 (herrors ▸ List.mem_cons_self), fun e' he' hother => ?_⟩
    have hmem : e' ∈ e :: rest := herrors ▸ Schemas.mem_checkRecord_iff.2 he'
    rw [herrors, List.pairwise_cons] at hordered
    exact hordered.1 e' ((List.mem_cons.1 hmem).resolve_left hother)

/-- The missing label of the node comes before the errors in its children, and the number of the
owner before the label that is missing further down. -/
theorem validate_ordered_nodes :
    ∃ S payload errors, resolve nodesAndOwners = .ok S ∧
      (∀ d ∈ nodesAndOwners, d.wires.Nodup) ∧ "Node" ∈ nodesAndOwners.map Table.name ∧
      payload = .object [
        ("children", .array [.object [("label", .number (.integer 3))], .object []]),
        ("owner_ref", .object [("id", .string "x"), ("root", .object [("children", .null)])])] ∧
      S.validate "Node" payload = .ok errors ∧
      errors = [⟨[.key "label"], .missing⟩,
        ⟨[.key "children", .index 0, .key "label"], .invalidType "string" "number"⟩,
        ⟨[.key "children", .index 1, .key "label"], .missing⟩,
        ⟨[.key "owner_ref", .key "id"], .invalidType "integer" "string"⟩,
        ⟨[.key "owner_ref", .key "root", .key "label"], .missing⟩] ∧
      errors.Pairwise (Precedes nodesAndOwners "Node" payload) := by
  have distinct : ∀ d ∈ nodesAndOwners, d.wires.Nodup := by decide
  obtain ⟨errors, herrors, -, hordered, -⟩ :=
    @validate_ordered nodesAndOwners _ "Node" rfl distinct (by decide) (.object [
      ("children", .array [.object [("label", .number (.integer 3))], .object []]),
      ("owner_ref", .object [("id", .string "x"), ("root", .object [("children", .null)])])])
  exact ⟨_, _, errors, rfl, distinct, by decide, rfl, herrors,
    Except.ok.inj (herrors.symm.trans rfl), hordered⟩

end RecordSchema
