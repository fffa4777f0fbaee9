/-
# Which record is to blame for stray keys

A record is not encoded if it, or a record inside of it, has keys that its table does not list.
`Stray` says which objects these are, by the declarations alone.  Encoding goes through the fields
of a record in the order of its table and through the items of an array one by one, and it looks
for stray keys of a record when it is done with the values inside.  This is `PostOrder`, and the
fault that is reported is the one of the first such object.

At one table, a fault is that of the first field whose value is not written, or it is the stray
keys of the record itself if all values are (`Table.fault_of_writeMembers`).  The first object with
stray keys in a value is the first one in an item or in a field, if what comes before has none
(`Schemas.FirstUnknown`), so this gives the first object of all (`Schemas.fault_of_encodeValue`).
`encode_fault_iff` says it of whole records.  The options have no part in it.
-/
import RecordSchema.Proofs.Ordered
import RecordSchema.Proofs.Precedence
import RecordSchema.Proofs.StrayKeys

namespace RecordSchema

/-! ## Stray keys and their order -/

/-- The keys of an object that a table does not list, in their order. -/
def Table.strays {ρ : Type} (table : Table ρ) (ms : Members) : List String :=
  (Members.keys ms).filter fun key => key ∉ table.wires

/-- An object that should be a record has keys that the table of the record does not list. -/
structure Stray (declared : List Declaration) (record : String) (payload : Json) (p : Path)
    (d : Declaration) (ms : Members) : Prop where
  /-- The declarations look for the record where the object stands. -/
  position : Position declared record payload p (.record d.name) (.object ms)
  /-- The record is declared with the table. -/
  table : d ∈ declared
  /-- The table does not list all keys of the object. -/
  stray : ∃ key ∈ Members.keys ms, key ∉ d.wires

/-- One place comes before another when values inside come before what they stand in. -/
inductive PostOrder (declared : List Declaration) (record : String) (payload : Json)
    (p q : Path) : Prop
  /-- The first place lies inside of the second one. -/
  | inside (within : q <+: p) (proper : q ≠ p)
  /-- In an array, by position. -/
  | item {r : Path} {item : Kind String} {items : List Json} {m n : Nat}
      (position : Position declared record payload r (.array item) (.array items))
      (part : Path.Part p q r (.index m) (.index n)) (order : m < n)
  /-- In a record, by the order of the table. -/
  | field {r : Path} {d : Declaration} {ms : Members} {k l : String}
      (position : Position declared record payload r (.record d.name) (.object ms))
      (table : d ∈ declared) (part : Path.Part p q r (.key k) (.key l))
      (order : d.wires.idxOf k < d.wires.idxOf l)

/-- Of all objects with stray keys, this is the first one in post-order. -/
structure FirstStray (declared : List Declaration) (record : String) (payload : Json) (p : Path)
    (d : Declaration) (ms : Members) : Prop extends Stray declared record payload p d ms where
  first : ∀ q d' ns, Stray declared record payload q d' ns →
    q = p ∨ PostOrder declared record payload p q

namespace Table

variable {ρ : Type} {table : Table ρ} {ms : Members}

lemma strays_map {σ : Type} (f : ρ → σ) (table : Table ρ) (ms : Members) :
    (table.map f).strays ms = table.strays ms := by
  rw [strays, strays, wires_map]

lemma keys_filter (table : Table ρ) (ms : Members) :
    Members.keys (ms.filter fun m => m.1 ∉ table.wires) = table.strays ms := by
  rw [strays, Members.keys, Members.keys, List.filter_map]
  rfl

/-- The stray keys of an object in order are in order. -/
lemma pairwise_strays (h : ms.Ascending) : (table.strays ms).Pairwise (· < ·) :=
  (Members.ascending_iff_keys.1 h).filter _

end Table

/-! ## One table -/

section Writing

variable {ρ : Type} {options : EncodeOptions} {encode : Field ρ → Except Fault Json}
  {fault : Fault}

/-- The fields of a table that lists no key twice are not written for the sake of the first one
whose value is not. -/
lemma Draft.first_of_foldlM_write {fields : List (Field ρ)} {d : Draft}
    (hnd : (fields.map Field.wire).Nodup)
    (h : fields.foldlM (fun d f => Draft.write options encode f d) d = .error fault) :
    ∃ f, First (fun f => ∃ v, f.held? d.left = some v ∧ ∃ e, encode f = .error e) fields f ∧
      encode f = .error fault := by
  induction fields generalizing d with
  | nil => cases h
  | cons f rest ih =>
    rw [List.map_cons, List.nodup_cons] at hnd
    rw [List.foldlM_cons] at h
    simp only [First.cons_iff]
    rcases eq_error_of_bind h with hwrite | ⟨d₁, hwrite, hrest⟩
    · rw [Draft.write] at hwrite
      split at hwrite
      · rename_i v hv
        have hf := eq_error_of_map hwrite
        exact ⟨f, .inl ⟨⟨v, hv, fault, hf⟩, rfl⟩, hf⟩
      · cases hwrite
    · obtain ⟨g, hfirst, hg⟩ := ih hnd.2 hrest
      refine ⟨g, .inr ⟨?_, hfirst.congr fun g' hg' => ?_⟩, hg⟩
      · rintro ⟨u, hu, e, he⟩
        rcases eq_settled_of_write hwrite with ⟨-, w, -, hw, -⟩ | ⟨hnone, -⟩
        · rw [he] at hw
          cases hw
        · rw [hu] at hnone
          cases hnone
      · -- A later field holds what it held before, since it has another key.
        have hne : f.wire ≠ g'.wire := fun heq => hnd.1 (heq ▸ List.mem_map.2 ⟨g', hg', rfl⟩)
        have hheld : g'.held? d₁.left = g'.held? d.left :=
          Field.held?_congr (by rw [left_of_write hwrite, Members.get?_erase, if_neg hne])
        rw [hheld]

/-- Members are not written because of the first field whose value is not, or if all values are
because of stray keys. -/
theorem Table.fault_of_writeMembers {table : Table ρ} {ms : Members} (hnd : table.wires.Nodup)
    (h : table.writeMembers options encode ms = .error fault) :
    (∃ f, First (fun f => ∃ v, f.held? ms = some v ∧ ∃ e, encode f = .error e) table.fields f ∧
        encode f = .error fault) ∨
      (∀ f ∈ table.fields, ∀ v, f.held? ms = some v → ∃ w, encode f = .ok w) ∧
        table.strays ms ≠ [] ∧ fault = .strayKeys table.name (table.strays ms) := by
  rw [writeMembers] at h
  rcases eq_error_of_bind h with hfold | ⟨d, hfold, hfinish⟩
  · exact .inl (Draft.first_of_foldlM_write hnd hfold)
  · have hleft : Members.keys d.left = table.strays ms := by
      rw [Draft.left_of_foldlM_write hfold]
      exact table.keys_filter ms
    rw [Draft.finish, hleft] at hfinish
    split at hfinish
    · cases hfinish
    · rename_i hnonempty
      refine .inr ⟨Draft.exists_of_foldlM_write_eq_ok hnd hfold, ?_,
        (Except.error.inj hfinish).symm⟩
      rw [← hleft]
      simpa [Members.keys] using hnonempty

end Writing

/-! ## All tables -/

namespace Schemas

variable {S : Schemas} {options : EncodeOptions} {i : Fin S.size} {payload v : Json} {p q : Path}
  {kind : Kind (Fin S.size)} {fault : Fault}

lemma not_known_iff {ms : Members} :
    ¬ S.Known i ms ↔ ∃ key ∈ Members.keys ms, key ∉ (S.table i).wires := by
  simp [Known]

lemma strays_ne_nil_iff {ms : Members} : (S.table i).strays ms ≠ [] ↔ ¬ S.Known i ms := by
  rw [not_known_iff, Table.strays, ne_eq, List.filter_eq_nil_iff]
  simp

/-- Of all objects inside of a value that have stray keys, this is the first one in post-order.  The
value stands at the path `p` of the payload. -/
structure FirstUnknown (S : Schemas) (i : Fin S.size) (payload : Json) (p : Path)
    (kind : Kind (Fin S.size)) (v : Json) (q : Path) (j : Fin S.size) (ms : Members) : Prop where
  located : S.Located kind v q (.record j) (.object ms)
  unknown : ¬ S.Known j ms
  first : ∀ q' k ns, S.Located kind v q' (.record k) (.object ns) → ¬ S.Known k ns →
    q' = q ∨ PostOrder S.declarations (S.nameOf i) payload (p ++ q) (p ++ q')

namespace FirstUnknown

variable {j k : Fin S.size} {ms ns : Members}

/-- The first object in an array is that of an item, if there are no stray keys in the items
before it. -/
lemma item {item : Kind (Fin S.size)} {before after : List Json}
    (hp : Position S.declarations (S.nameOf i) payload p ((Kind.array item).map S.nameOf)
      (.array (before ++ v :: after)))
    (hbefore : ∀ u ∈ before, S.EachRecord S.Known item u)
    (h : S.FirstUnknown i payload (p.index before.length) item v q j ms) :
    S.FirstUnknown i payload p (.array item) (.array (before ++ v :: after))
      (.index before.length :: q) j ms := by
  have hget : (before ++ v :: after)[before.length]? = some v := by simp
  refine ⟨.item hget h.located, h.unknown, fun q' k ns hlocated hunknown => ?_⟩
  cases hlocated with
  | @item _ _ n u _ q' _ found inside =>
    rcases Nat.lt_trichotomy n before.length with hlt | rfl | hgt
    · rw [List.getElem?_append_left hlt] at found
      exact absurd (hbefore u (List.mem_of_getElem? found) _ _ _ inside) hunknown
    · obtain rfl := Option.some.inj (hget.symm.trans found)
      rcases h.first q' k ns inside hunknown with rfl | hlater
      · exact .inl rfl
      · exact .inr (by simpa [Path.index] using hlater)
    · have hne : Segment.index before.length ≠ .index n := by simpa using Nat.ne_of_lt hgt
      exact .inr (.item hp (.of_append hne p q q') hgt)

/-- The first object in a record is that of a field, if there are no stray keys in the fields
before it. -/
lemma member {f : Field (Fin S.size)} {before after : List (Field (Fin S.size))}
    (distinct : (S.table j).wires.Nodup) (hfields : (S.table j).fields = before ++ f :: after)
    (hp : Position S.declarations (S.nameOf i) payload p ((Kind.record j).map S.nameOf)
      (.object ms))
    (hbefore : ∀ g ∈ before, ∀ u, g.held? ms = some u → S.EachRecord S.Known g.kind u)
    (hv : f.held? ms = some v) (h : S.FirstUnknown i payload (p.key f.wire) f.kind v q k ns) :
    S.FirstUnknown i payload p (.record j) (.object ms) (.key f.wire :: q) k ns := by
  have hf : f ∈ (S.table j).fields := hfields ▸ List.mem_append_right _ List.mem_cons_self
  refine ⟨.member hf hv h.located, h.unknown, fun q' k' ns' hlocated hunknown => ?_⟩
  cases hlocated with
  | here => exact .inr (.inside (by simp) (by simp))
  | @member _ _ g u _ q' _ field held inside =>
    rw [hfields] at field
    rcases List.mem_append.1 field with hg | hg
    · exact absurd (hbefore g hg u held _ _ _ inside) hunknown
    · rcases List.mem_cons.1 hg with rfl | hg
      · obtain rfl := Option.some.inj (hv.symm.trans held)
        rcases h.first q' k' ns' inside hunknown with rfl | hlater
        · exact .inl rfl
        · exact .inr (by simpa [Path.key] using hlater)
      · have horder := pairwise_idxOf_wire distinct
        rw [hfields, List.pairwise_append, List.pairwise_cons] at horder
        have hlt := horder.2.1.1 g hg
        exact .inr (.field hp (S.map_table_mem j) (.of_append (key_ne_of_idxOf_lt hlt) p q q')
          (by simpa using hlt))

/-- The first object in a record is the record itself, if there are no stray keys in its
fields. -/
lemma here (hunknown : ¬ S.Known j ms)
    (hfields : ∀ f ∈ (S.table j).fields, ∀ v, f.held? ms = some v →
      S.EachRecord S.Known f.kind v) :
    S.FirstUnknown i payload p (.record j) (.object ms) [] j ms := by
  refine ⟨.here _ _, hunknown, fun q' k ns hlocated hunknown' => ?_⟩
  cases hlocated with
  | here => exact .inl rfl
  | member field held inside => exact absurd (hfields _ field _ held _ _ _ inside) hunknown'

end FirstUnknown

/-- What does not fail to be written has no stray keys. -/
lemma known_of_encodeValue_ne_error (hregular : S.EachRecord S.Regular kind v)
    (h : ¬ ∃ e, S.encodeValue options kind v = .error e) : S.EachRecord S.Known kind v := by
  cases hok : S.encodeValue options kind v with
  | error e => exact absurd ⟨e, hok⟩ h
  | ok w => exact known_of_encodeValue hregular hok

/-- The fault in writing a value is that of the first object inside of it that has stray keys. -/
theorem fault_of_encodeValue (hregular : S.EachRecord S.Regular kind v)
    (hp : Position S.declarations (S.nameOf i) payload p (kind.map S.nameOf) v)
    (h : S.encodeValue options kind v = .error fault) :
    ∃ q j ms, S.FirstUnknown i payload p kind v q j ms ∧
      fault = .strayKeys (S.nameOf j) ((S.table j).strays ms) := by
  induction kind, v using descend generalizing p with
  | flat kind v hflat =>
    rw [encodeValue_of_flat hflat] at h
    cases h
  | array item items ih =>
    rw [eachRecord_array_iff] at hregular
    rw [encodeValue] at h
    have hitems := eq_error_of_map h
    rw [encodeItems_eq_mapM] at hitems
    obtain ⟨v, ⟨-, before, after, rfl, hbefore⟩, hv⟩ := mapM_eq_error_iff.1 hitems
    have hmem : v ∈ before ++ v :: after := List.mem_append_right _ List.mem_cons_self
    have hget : (before ++ v :: after)[before.length]? = some v := by simp
    obtain ⟨q, j, ms, hfirst, hfault⟩ := ih v hmem (hregular v hmem) (.item hp hget) hv
    refine ⟨_, j, ms, hfirst.item hp fun u hu => ?_, hfault⟩
    exact known_of_encodeValue_ne_error (hregular u (List.mem_append_left _ hu)) (hbefore u hu)
  | record j ms ih =>
    obtain ⟨hhere, hinside⟩ := eachRecord_record_iff.1 hregular
    have hmember : ∀ (f : Field (Fin S.size)) v, f.held? ms = some v →
        S.encodeMember options f.wire f.kind ms = S.encodeValue options f.kind v := by
      intro f v hv
      rw [encodeMember_eq, Field.get?_of_held? hv]
    rw [encodeValue] at h
    rcases Table.fault_of_writeMembers hhere.distinct (eq_error_of_map h) with
      ⟨f, ⟨⟨v, hv, -⟩, before, after, hfields, hbefore⟩, hf⟩ | ⟨hwritten, hstrays, hfault⟩
    · have hmem : f ∈ (S.table j).fields :=
        hfields ▸ List.mem_append_right _ List.mem_cons_self
      rw [hmember f v hv] at hf
      obtain ⟨q, k, ns, hfirst, hfault⟩ :=
        ih f hmem v hv (hinside f hmem v hv) ((Located.member hmem hv (.here _ _)).position hp) hf
      refine ⟨_, k, ns, hfirst.member hhere.distinct hfields hp (fun g hg u hu => ?_) hv, hfault⟩
      have hwritten : ¬ ∃ e, S.encodeValue options g.kind u = .error e := by
        rw [← hmember g u hu]
        exact fun hfails => hbefore g hg ⟨u, hu, hfails⟩
      exact known_of_encodeValue_ne_error
        (hinside g (hfields ▸ List.mem_append_left _ hg) u hu) hwritten
    · refine ⟨[], j, ms, .here (strays_ne_nil_iff.1 hstrays) fun f hf v hv => ?_, hfault⟩
      obtain ⟨w, hw⟩ := hwritten f hf v hv
      rw [hmember f v hv] at hw
      exact known_of_encodeValue (hinside f hf v hv) hw

/-- Of two places, at most one comes before the other in post-order. -/
theorem postOrder_asymm (distinct : ∀ j, (S.table j).wires.Nodup)
    (h : PostOrder S.declarations (S.nameOf i) payload p q) :
    ¬ PostOrder S.declarations (S.nameOf i) payload q p := by
  intro h'
  cases h with
  | inside within proper =>
    cases h' with
    | inside within' proper' =>
      exact proper (within.eq_of_length (Nat.le_antisymm within.length_le within'.length_le))
    | item position part order => exact part.not_prefix within
    | field position table part order => exact part.not_prefix within
  | item position part order =>
    cases h' with
    | inside within proper => exact part.not_prefix within
    | item position' part' order' => exact part.index_asymm order part' order'
    | field position' table' part' order' =>
      exact absurd (part.unique part'.symm).2.1 (by simp)
  | field position table part order =>
    cases h' with
    | inside within proper => exact part.not_prefix within
    | item position' part' order' => exact absurd (part.unique part'.symm).2.1 (by simp)
    | field position' table' part' order' =>
      exact key_asymm distinct position table part order position' table' part' order'

/-- Objects with stray keys are where the descent meets members that are not all listed. -/
lemma stray_iff {d : Declaration} {ms : Members} :
    Stray S.declarations (S.nameOf i) payload p d ms ↔
      ∃ j, (S.table j).map S.nameOf = d ∧
        S.Located (.record i) payload p (.record j) (.object ms) ∧ ¬ S.Known j ms := by
  constructor
  · rintro ⟨hposition, htable, hstray⟩
    obtain ⟨kind, hkind, hlocated⟩ := position_iff_located.1 hposition
    obtain ⟨j, rfl, hj⟩ := Kind.map_eq_record_iff.1 hkind
    obtain rfl := map_table htable hj
    rw [Table.wires_map] at hstray
    exact ⟨j, rfl, hlocated, not_known_iff.2 hstray⟩
  · rintro ⟨j, rfl, hlocated, hstray⟩
    refine ⟨hlocated.position .root, S.map_table_mem j, ?_⟩
    rw [Table.wires_map]
    exact not_known_iff.1 hstray

/-- There is one first object with stray keys at most. -/
lemma firstStray_unique (distinct : ∀ j, (S.table j).wires.Nodup) {d d' : Declaration}
    {ms ms' : Members} (h : FirstStray S.declarations (S.nameOf i) payload p d ms)
    (h' : FirstStray S.declarations (S.nameOf i) payload q d' ms') : d = d' ∧ ms = ms' := by
  obtain rfl : p = q := by
    rcases h.first _ _ _ h'.toStray with hq | hpq
    · exact hq.symm
    · rcases h'.first _ _ _ h.toStray with hp | hqp
      · exact hp
      · exact absurd hqp (postOrder_asymm distinct hpq)
  obtain ⟨hkind, hvalue⟩ := position_unique distinct h.position h'.position
  exact ⟨eq_of_name_eq h.table h'.table (Kind.record.inj hkind), Json.object.inj hvalue⟩

section Records

variable {ms : Members}

/-- If a record is not encoded, the first object that has stray keys is reported. -/
lemma firstStray_of_encodeRecord (hregular : S.EachRecord S.Regular (.record i) (.object ms))
    (h : S.encodeRecord options i ms = .error fault) :
    ∃ p d ns, FirstStray S.declarations (S.nameOf i) (.object ms) p d ns ∧
      fault = .strayKeys d.name (d.strays ns) := by
  obtain ⟨p, j, ns, hfirst, rfl⟩ :=
    fault_of_encodeValue hregular .root (encodeRecord_eq_error_iff_object.1 h)
  refine ⟨p, (S.table j).map S.nameOf, ns,
    ⟨stray_iff.2 ⟨j, rfl, hfirst.located, hfirst.unknown⟩, fun q d' ns' h' => ?_⟩, ?_⟩
  · obtain ⟨k, -, hlocated, hunknown⟩ := stray_iff.1 h'
    exact hfirst.first q k ns' hlocated hunknown
  · rw [Table.strays_map]
    rfl

/-- A record with stray keys somewhere is not encoded. -/
lemma exists_encodeRecord_eq_error (hregular : S.EachRecord S.Regular (.record i) (.object ms))
    {d : Declaration} {ns : Members}
    (h : Stray S.declarations (S.nameOf i) (.object ms) p d ns) (options : EncodeOptions) :
    ∃ fault, S.encodeRecord options i ms = .error fault := by
  obtain ⟨j, -, hlocated, hstray⟩ := stray_iff.1 h
  cases hout : S.encodeRecord options i ms with
  | error fault => exact ⟨fault, rfl⟩
  | ok out =>
    have hknown := known_of_encodeValue hregular (encodeRecord_eq_ok_iff.1 hout)
    exact absurd (hknown _ _ _ hlocated) hstray

/-- The fault in encoding a record is that of the first object that has stray keys. -/
theorem encodeRecord_eq_error_iff (distinct : ∀ j, (S.table j).wires.Nodup)
    (hregular : S.EachRecord S.Regular (.record i) (.object ms)) :
    S.encodeRecord options i ms = .error fault ↔
      ∃ p d ns, FirstStray S.declarations (S.nameOf i) (.object ms) p d ns ∧
        fault = .strayKeys d.name (d.strays ns) := by
  refine ⟨firstStray_of_encodeRecord hregular, ?_⟩
  rintro ⟨p, d, ns, hfirst, rfl⟩
  obtain ⟨fault, hfault⟩ := exists_encodeRecord_eq_error hregular hfirst.toStray options
  -- The fault is that of a first object, and there is only one.
  obtain ⟨q, d', ns', hfirst', rfl⟩ := firstStray_of_encodeRecord hregular hfault
  obtain ⟨rfl, rfl⟩ := firstStray_unique distinct hfirst hfirst'
  exact hfault

end Records

end Schemas

/-! ## Records of a type -/

/-- If no table of a set lists a key twice, a record is not encoded just when there are stray
keys somewhere.  Then the keys are reported, in ascending order, which are stray at the first
object that has such keys, whatever the options are. -/
theorem encode_fault_iff {declared : List Declaration} {S : Schemas} {α : Type}
    {R : RecordType α} {r : α} {ms : Members} (resolved : resolve declared = .ok S)
    (distinct : ∀ d ∈ declared, d.wires.Nodup) (known : R.name ∈ declared.map Table.name)
    (written : R.write r = .ok (.object ms)) (ordered : (Json.object ms).Ordered) :
    (∀ options, (∃ fault, S.encode R r options = .error fault) ↔
      ∃ p d ns, Stray declared R.name (.object ms) p d ns) ∧
    (∀ options fault, S.encode R r options = .error fault ↔
      ∃ p d ns, FirstStray declared R.name (.object ms) p d ns ∧
        fault = .strayKeys d.name (d.strays ns)) ∧
    (∀ p d ns, Stray declared R.name (.object ms) p d ns →
      (d.strays ns).Pairwise (· < ·) ∧
      ∀ key, key ∈ d.strays ns ↔ key ∈ Members.keys ns ∧ key ∉ d.wires) ∧
    (∀ options options' fault,
      S.encode R r options = .error fault ↔ S.encode R r options' = .error fault) ∧
    ∀ p q, PostOrder declared R.name (.object ms) p q →
      ¬ PostOrder declared R.name (.object ms) q p := by
  obtain rfl := declarations_of_resolve resolved
  obtain ⟨i, hi⟩ := Schemas.exists_nameOf known
  have hwires := Schemas.nodup_wires distinct
  have hregular := ordered.eachRecord_regular hwires (.record i)
  have hfault : ∀ options fault, S.encode R r options = .error fault ↔
      ∃ p d ns, FirstStray S.declarations R.name (.object ms) p d ns ∧
        fault = .strayKeys d.name (d.strays ns) := by
    intro options fault
    rw [Schemas.encode_eq_encodeRecord hi written, ← hi]
    exact Schemas.encodeRecord_eq_error_iff hwires hregular
  refine ⟨fun options => ⟨?_, ?_⟩, hfault, fun p d ns h => ⟨?_, fun key => ?_⟩,
    fun options options' fault => (hfault options fault).trans (hfault options' fault).symm,
    fun p q => hi ▸ Schemas.postOrder_asymm hwires⟩
  · rintro ⟨fault, h⟩
    obtain ⟨p, d, ns, hfirst, -⟩ := (hfault options fault).1 h
    exact ⟨p, d, ns, hfirst.toStray⟩
  · rintro ⟨p, d, ns, h⟩
    rw [Schemas.encode_eq_encodeRecord hi written]
    exact Schemas.exists_encodeRecord_eq_error hregular (hi ▸ h) options
  · rw [← hi] at h
    obtain ⟨j, -, hlocated, -⟩ := Schemas.stray_iff.1 h
    exact Table.pairwise_strays (hregular _ _ _ hlocated).ascending
  · rw [Table.strays, List.mem_filter, decide_eq_true_iff]

/-- There are stray keys in the second child, in the root of the owner and in the node itself.
Those of the child are reported. -/
theorem encode_fault_iff_node :
    ∃ S payload, resolve nodesAndOwners = .ok S ∧
      (∀ d ∈ nodesAndOwners, d.wires.Nodup) ∧ "Node" ∈ nodesAndOwners.map Table.name ∧
      payload = [
        ("aa", .null),
        ("children", .array [.object [("label", .null)],
          .object [("aa", .null), ("label", .string "x"), ("zz", .object [])]]),
        ("owner_ref", .object [("root", .object [("id", .null)])])] ∧
      (Json.object payload).Ordered ∧
      S.encode ⟨"Node", [], .ok, .ok⟩ (.object payload) .explicitNulls =
        .error (.strayKeys "Node" ["aa", "zz"]) ∧
      ∃ p d ns, FirstStray nodesAndOwners "Node" (.object payload) p d ns ∧
        Fault.strayKeys "Node" ["aa", "zz"] = .strayKeys d.name (d.strays ns) := by
  have resolved : resolve nodesAndOwners = .ok _ := rfl
  have distinct : ∀ d ∈ nodesAndOwners, d.wires.Nodup := by decide
  obtain ⟨-, hfault, -⟩ := encode_fault_iff resolved distinct
    (R := ⟨"Node", [], .ok, .ok⟩)
    (r := Json.object [
        ("aa", .null),
        ("children", .array [.object [("label", .null)],
          .object [("aa", .null), ("label", .string "x"), ("zz", .object [])]]),
        ("owner_ref", .object [("root", .object [("id", .null)])])])
    (by decide) rfl (by decide)
  exact ⟨_, _, resolved, distinct, by decide, rfl, by decide, rfl, (hfault .explicitNulls _).1 rfl⟩

end RecordSchema
