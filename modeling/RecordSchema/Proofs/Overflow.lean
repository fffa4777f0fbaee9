/-
# What validation does not catch

A table asks for an integer, but a codec reads it into sixteen bits.  This is the one point in
which reading is stricter than the tables: of a payload without errors, everything is read
unless an integer somewhere along the tables is out of range (`Codec.Fits.not_overflow`), and
if so, reading fails with the first of them in document order (`Codec.Fits.read_eq_error`).

The only integers of a test read are the status codes of responses
(`Model.overflow_iff_statusOutOfRange`), so `construct_of_valid` says which payloads without
errors are still refused, and with which error.
-/
import RecordSchema.Proofs.RoundTrip

namespace RecordSchema

/-! ## Document order -/

/-- A segment comes before another in one value: the members of an object in the order of their
keys, the items of an array in the order of their positions. -/
inductive Segment.Before : Segment → Segment → Prop
  | key {a b : String} (h : a < b) : Before (.key a) (.key b)
  | index {m n : Nat} (h : m < n) : Before (.index m) (.index n)

/-- A path comes before another in document order. -/
def Path.Before : Path → Path → Prop := List.Lex Segment.Before

lemma Segment.Before.asymm {s t : Segment} (h : s.Before t) : ¬ t.Before s := by
  intro h'
  cases h with
  | key hab =>
    cases h' with
    | key hba => exact String.lt_asymm hab hba
  | index hmn =>
    cases h' with
    | index hnm => omega

lemma Path.Before.asymm {p q : Path} (h : p.Before q) : ¬ q.Before p :=
  List.lex_asymm Segment.Before.asymm h

/-! ## Integers out of range -/

namespace Schemas

variable {S : Schemas} {kind : Kind (Fin S.size)} {v : Json} {p : Path} {n : Int}

/-- A path leads along the tables to an integer that does not fit into sixteen bits. -/
def Overflow (S : Schemas) (kind : Kind (Fin S.size)) (v : Json) (p : Path) (n : Int) : Prop :=
  S.Located kind v p .integer (.number (.integer n)) ∧ ¬ (0 ≤ n ∧ n < 65536)

lemma overflow_integer_iff {k : Int} :
    S.Overflow .integer (.number (.integer k)) p n ↔ p = [] ∧ n = k ∧ ¬ (0 ≤ k ∧ k < 65536) := by
  constructor
  · rintro ⟨hlocated, hrange⟩
    obtain ⟨rfl, -, hvalue⟩ := hlocated.of_flat rfl
    obtain rfl := Number.integer.inj (Json.number.inj hvalue)
    exact ⟨rfl, rfl, hrange⟩
  · rintro ⟨rfl, rfl, hrange⟩
    exact ⟨.here _ _, hrange⟩

lemma not_overflow_of_flat (hflat : kind.opens v = false) (hkind : kind ≠ .integer) :
    ¬ S.Overflow kind v p n := by
  rintro ⟨hlocated, -⟩
  exact hkind (hlocated.of_flat hflat).2.1.symm

lemma overflow_array_iff {item : Kind (Fin S.size)} {items : List Json} :
    S.Overflow (.array item) (.array items) p n ↔
      ∃ m w q, p = .index m :: q ∧ items[m]? = some w ∧ S.Overflow item w q n := by
  constructor
  · rintro ⟨hlocated, hrange⟩
    cases hlocated with
    | @item _ _ m w _ q _ found inside => exact ⟨m, w, q, rfl, found, inside, hrange⟩
  · rintro ⟨m, w, q, rfl, hw, hlocated, hrange⟩
    exact ⟨.item hw hlocated, hrange⟩

lemma overflow_record_iff {i : Fin S.size} {ms : Members} :
    S.Overflow (.record i) (.object ms) p n ↔
      ∃ f ∈ (S.table i).fields, ∃ w q, p = .key f.wire :: q ∧ f.held? ms = some w ∧
        S.Overflow f.kind w q n := by
  constructor
  · rintro ⟨hlocated, hrange⟩
    cases hlocated with
    | @member _ _ f w _ q _ field held inside =>
      exact ⟨f, field, w, q, rfl, held, inside, hrange⟩
  · rintro ⟨f, hf, w, q, rfl, hw, hlocated, hrange⟩
    exact ⟨.member hf hw hlocated, hrange⟩

/-- Of all integers out of range, this is the first in document order. -/
structure FirstOverflow (S : Schemas) (kind : Kind (Fin S.size)) (v : Json) (p : Path) (n : Int) :
    Prop where
  overflow : S.Overflow kind v p n
  first : ∀ q k, S.Overflow kind v q k → q = p ∨ p.Before q

/-- The first overflow of the first item that has one is the first of the array. -/
lemma FirstOverflow.of_item {item : Kind (Fin S.size)} {items : List Json} {m : Nat} {w : Json}
    (hw : items[m]? = some w) (h : S.FirstOverflow item w p n)
    (hbefore : ∀ l < m, ∀ u, items[l]? = some u → ∀ q k, ¬ S.Overflow item u q k) :
    S.FirstOverflow (.array item) (.array items) (.index m :: p) n := by
  refine ⟨overflow_array_iff.2 ⟨m, w, p, rfl, hw, h.overflow⟩, fun q k hq => ?_⟩
  obtain ⟨l, u, q, rfl, hu, hinside⟩ := overflow_array_iff.1 hq
  rcases Nat.lt_trichotomy l m with hlt | rfl | hgt
  · exact absurd hinside (hbefore l hlt u hu q k)
  · obtain rfl := Option.some.inj (hw.symm.trans hu)
    rcases h.first q k hinside with rfl | hlater
    · exact .inl rfl
    · exact .inr (.cons hlater)
  · exact .inr (.rel (.index hgt))

/-- The first overflow of the field with the least key that has one is the first of the
record. -/
lemma FirstOverflow.of_field {i : Fin S.size} {ms : Members} {f : Field (Fin S.size)} {w : Json}
    (distinct : (S.table i).wires.Nodup) (hf : f ∈ (S.table i).fields) (hw : f.held? ms = some w)
    (h : S.FirstOverflow f.kind w p n)
    (hbefore : ∀ g ∈ (S.table i).fields, g.wire < f.wire → ∀ u, g.held? ms = some u →
      ∀ q k, ¬ S.Overflow g.kind u q k) :
    S.FirstOverflow (.record i) (.object ms) (.key f.wire :: p) n := by
  refine ⟨overflow_record_iff.2 ⟨f, hf, w, p, rfl, hw, h.overflow⟩, fun q k hq => ?_⟩
  obtain ⟨g, hg, u, q, rfl, hu, hinside⟩ := overflow_record_iff.1 hq
  by_cases hlt : g.wire < f.wire
  · exact absurd hinside (hbefore g hg hlt u hu q k)
  by_cases hgt : f.wire < g.wire
  · exact .inr (.rel (.key hgt))
  -- Neither key comes first, so the two fields are one.
  have hwire : f.wire = g.wire := String.le_antisymm (String.not_lt.1 hlt) (String.not_lt.1 hgt)
  obtain rfl := Table.eq_of_wire_eq distinct hf hg hwire
  obtain rfl := Option.some.inj (hw.symm.trans hu)
  rcases h.first q k hinside with rfl | hlater
  · exact .inl rfl
  · exact .inr (.cons hlater)

end Schemas

/-! ## Reading payloads without errors -/

namespace Codec.Fits

variable {S : Schemas} {α : Type} {kind : Kind (Fin S.size)} {c : Codec α}

/-- Where a value is read, no integer is out of range. -/
theorem not_overflow (h : Fits S kind c) : ∀ {v : Json} {a : α} {p : Path} {n : Int},
    S.check kind v = [] → c.read v = .ok a → ¬ S.Overflow kind v p n := by
  induction h with
  | text => exact fun _ _ => Schemas.not_overflow_of_flat rfl (by simp)
  | flag => exact fun _ _ => Schemas.not_overflow_of_flat rfl (by simp)
  | word =>
    intro v w p n hcheck hread hoverflow
    obtain ⟨k, rfl⟩ := Schemas.check_integer_eq_nil_iff.1 hcheck
    obtain ⟨-, -, hrange⟩ := Schemas.overflow_integer_iff.1 hoverflow
    have hk := eq_toNat_of_readWord hread
    have hlt : w.toNat < 2 ^ 16 := w.toNat_lt
    omega
  | document => exact fun _ _ => Schemas.not_overflow_of_flat rfl (by simp)
  | @list α kind c item ih =>
    intro v xs p n hcheck hread hoverflow
    obtain ⟨items, rfl, hitems⟩ := Schemas.exists_array_of_check hcheck
    obtain ⟨m, w, q, -, hw, hinside⟩ := Schemas.overflow_array_iff.1 hoverflow
    have hmem := List.mem_of_getElem? hw
    obtain ⟨a, ha⟩ := exists_read_of_mem hread hmem
    exact ih (hitems w hmem) ha hinside
  | literals found => exact fun _ _ => Schemas.not_overflow_of_flat rfl (by simp)
  | @record α τ i layout build parts value distinct fields values build_parts parts_build ih =>
    intro v r p n hcheck hread hoverflow
    obtain ⟨ms, rfl, -, hfields⟩ := Schemas.exists_object_of_check hcheck
    obtain ⟨f, hf, w, q, -, hw, hinside⟩ := Schemas.overflow_record_iff.1 hoverflow
    obtain ⟨-, -, hreadable, -⟩ := fields.ofMembers_eq_ok distinct (eq_ok_of_mapError hread)
    obtain ⟨β, d, b, hd, hread'⟩ := (hreadable f hf).legible w hw
    exact ih hd (hfields f hf w hw) hread' hinside

/-- If a payload without errors is not read, an integer is out of range, and the error is that
of the first one. -/
theorem read_eq_error (h : Fits S kind c) : ∀ {v : Json} {e : DecodeError},
    S.check kind v = [] → c.read v = .error e →
    ∃ n, e.failure = .outOfRange n ∧ S.FirstOverflow kind v e.path n := by
  induction h with
  | text =>
    intro v e hcheck herror
    obtain ⟨s, rfl⟩ := Schemas.check_string_eq_nil_iff.1 hcheck
    cases herror
  | flag =>
    intro v e hcheck herror
    obtain ⟨b, rfl⟩ := Schemas.check_boolean_eq_nil_iff.1 hcheck
    cases herror
  | word =>
    intro v e hcheck herror
    obtain ⟨n, rfl⟩ := Schemas.check_integer_eq_nil_iff.1 hcheck
    simp only [Codec.word, readWord] at herror
    split at herror
    · cases herror
    · rename_i hrange
      obtain rfl := Except.error.inj herror
      refine ⟨n, rfl, ⟨.here _ _, hrange⟩, fun q k hq => ?_⟩
      exact .inl (Schemas.overflow_integer_iff.1 hq).1
  | document =>
    intro v e hcheck herror
    obtain ⟨ms, rfl⟩ := Schemas.check_object_eq_nil_iff.1 hcheck
    cases herror
  | @list α kind c item ih =>
    intro v e hcheck herror
    obtain ⟨items, rfl, hitems⟩ := Schemas.exists_array_of_check hcheck
    obtain ⟨m, w, e', hw, hread, rfl, hbefore⟩ := exists_of_readItems_error herror
    obtain ⟨n, hfailure, hfirst⟩ := ih (hitems w (List.mem_of_getElem? hw)) hread
    rw [Nat.zero_add]
    refine ⟨n, hfailure, hfirst.of_item hw fun l hlt u hu q k => ?_⟩
    -- The items before the one that cannot be read are read, so nothing in them overflows.
    obtain ⟨a, ha⟩ := hbefore l hlt u hu
    exact item.not_overflow (hitems u (List.mem_of_getElem? hu)) ha
  | @literals α ls found =>
    intro v e hcheck herror
    obtain ⟨s, hs, rfl⟩ := Schemas.check_oneOf_eq_nil_iff.1 hcheck
    obtain ⟨a, -, rfl⟩ := List.mem_map.1 hs
    have hread : ls.codec.read (.string (ls.literal a)) = .ok a :=
      (Fits.literals (S := S) found).read_write a
    rw [hread] at herror
    cases herror
  | @record α τ i layout build parts value distinct fields values build_parts parts_build ih =>
    intro v e hcheck herror
    obtain ⟨ms, rfl, hrequired, hfields⟩ := Schemas.exists_object_of_check hcheck
    obtain ⟨s, hs, rfl⟩ := eq_error_of_mapError herror
    cases fields.ofMembers_eq_error distinct hs with
    | @unreadable f β d w e' hf hd hw hread hleast =>
      obtain ⟨n, hfailure, hfirst⟩ := ih hd (hfields f hf w hw) hread
      refine ⟨n, hfailure, hfirst.of_field distinct hf hw fun g hg hlt u hu q k => ?_⟩
      -- Nor does anything under the lesser keys, which are readable.
      obtain ⟨γ, d', b, hd', hread'⟩ := hleast g hg hlt u hu
      exact (values hd').not_overflow (hfields g hg u hu) hread'
    | @lacking f hf need held legible =>
      have hcontains := hrequired f hf need
      rw [Members.contains, ← Field.held?_of_required need, held] at hcontains
      cases hcontains

end Codec.Fits

/-! ## Integers in the fields of records -/

/-- The kind of the values at the bottom of nested arrays. -/
def Kind.base {ρ : Type} : Kind ρ → Kind ρ
  | .array item => item.base
  | kind => kind

lemma Kind.base_map {ρ σ : Type} (f : ρ → σ) (kind : Kind ρ) :
    (kind.map f).base = kind.base.map f := by
  induction kind with
  | array item ih => exact ih
  | _ => rfl

lemma Kind.map_eq_integer_iff {ρ σ : Type} {f : ρ → σ} {kind : Kind ρ} :
    kind.map f = .integer ↔ kind = .integer := by
  cases kind <;> simp [Kind.map]

namespace Schemas

variable {S : Schemas} {kind : Kind (Fin S.size)} {v w : Json} {p : Path}

/-- If no field holds arrays of integers, the descent meets integers only as fields. -/
lemma Located.exists_field (hplain : ∀ j, ∀ f ∈ (S.table j).fields, f.kind.base = .integer →
      f.kind = .integer)
    (h : S.Located kind v p .integer w) (hkind : kind.base ≠ .integer) :
    ∃ q j ms f, p = Path.key q f.wire ∧ S.Located kind v q (.record j) (.object ms) ∧
      f ∈ (S.table j).fields ∧ f.kind = .integer ∧ f.held? ms = some w := by
  generalize htarget : Kind.integer = target at h
  induction h with
  | here kind v => exact absurd (htarget ▸ rfl) hkind
  | @member i ms f v w p kind field held inside ih =>
    -- An integer right below this record is the value of the field; any other lies deeper.
    by_cases hbase : f.kind.base = .integer
    · subst htarget
      have hinteger := hplain i f field hbase
      rw [hinteger] at inside
      obtain ⟨rfl, -, rfl⟩ := inside.of_flat rfl
      exact ⟨[], i, ms, f, rfl, .here _ _, field, hinteger, held⟩
    · obtain ⟨q, j, ns, g, rfl, hq, hg⟩ := ih hbase htarget
      exact ⟨.key f.wire :: q, j, ns, g, rfl, .member field held hq, hg⟩
  | @item item items n v w p kind found inside ih =>
    obtain ⟨q, j, ns, g, rfl, hq, hg⟩ := ih hkind htarget
    exact ⟨.index n :: q, j, ns, g, rfl, .item found hq, hg⟩

end Schemas

/-! ## Status codes -/

namespace Model

variable {m : Model} {v : Json} {p : Path} {n : Int}

/-- A path leads to the status code of a response, and the code does not fit into sixteen
bits. -/
def StatusOutOfRange (m : Model) (v : Json) (p : Path) (n : Int) : Prop :=
  ∃ q ms, p = Path.key q "status" ∧
    schemas.Located (.record m.position) v q (.record httpResponse.position) (.object ms) ∧
    Members.get? "status" ms = some (.number (.integer n)) ∧ ¬ (0 ≤ n ∧ n ≤ 65535)

/-- Of all status codes out of range, this is the first in document order. -/
structure FirstStatusOutOfRange (m : Model) (v : Json) (p : Path) (n : Int) : Prop where
  outOfRange : m.StatusOutOfRange v p n
  first : ∀ q k, m.StatusOutOfRange v q k → q = p ∨ p.Before q

/-- There is at most one first status code that is out of range. -/
lemma FirstStatusOutOfRange.path_eq {q : Path} {k : Int} (h : m.FirstStatusOutOfRange v p n)
    (h' : m.FirstStatusOutOfRange v q k) : p = q := by
  rcases h.first q k h'.outOfRange with rfl | hpq
  · rfl
  · rcases h'.first p n h.outOfRange with rfl | hqp
    · rfl
    · exact absurd hqp hpq.asymm

/-- Only the status code of a response is an integer. -/
lemma field_of_base_eq_integer {j : Fin schemas.size} {f : Field (Fin schemas.size)}
    (hf : f ∈ (schemas.table j).fields) (hbase : f.kind.base = .integer) :
    j = httpResponse.position ∧ f.wire = "status" ∧ f.kind = .integer := by
  have hall : ∀ d ∈ declarations, ∀ g ∈ d.fields, g.kind.base = .integer →
      d.name = httpResponse.name ∧ g.wire = "status" ∧ g.kind = .integer := by decide
  have hmem := schemas.map_table_mem j
  rw [declarations_of_resolve resolve_declarations] at hmem
  obtain ⟨hname, hwire, hkind⟩ := hall _ hmem (f.map schemas.nameOf)
    (List.mem_map.2 ⟨f, hf, rfl⟩) ((Kind.base_map _ _).trans (by rw [hbase]; rfl))
  exact ⟨schemas.nameOf_injective (hname.trans httpResponse.nameOf_position.symm), hwire,
    Kind.map_eq_integer_iff.1 hkind⟩

lemma exists_status_field : ∃ f ∈ (schemas.table httpResponse.position).fields,
    f.wire = "status" ∧ f.kind = .integer ∧ f.required = true := by
  have hstatus : (⟨"status", "status", .integer, true⟩ : Field String) ∈
      httpResponse.layout.table := List.mem_cons_self
  obtain ⟨f, hf, hmap⟩ := exists_field hstatus
  obtain ⟨-, hwire, hkind, hrequired⟩ := Field.mk.inj hmap
  exact ⟨f, hf, hwire, Kind.map_eq_integer_iff.1 hkind, hrequired⟩

theorem overflow_iff_statusOutOfRange :
    schemas.Overflow (.record m.position) v p n ↔ m.StatusOutOfRange v p n := by
  constructor
  · rintro ⟨hlocated, hrange⟩
    obtain ⟨q, j, ms, f, rfl, hq, hf, hkind, hheld⟩ := hlocated.exists_field
      (fun j f hf hbase => (field_of_base_eq_integer hf hbase).2.2) (by simp [Kind.base])
    obtain ⟨rfl, hwire, -⟩ := field_of_base_eq_integer hf (by rw [hkind]; rfl)
    rw [hwire]
    refine ⟨q, ms, rfl, hq, hwire ▸ Field.get?_of_held? hheld, by omega⟩
  · rintro ⟨q, ms, rfl, hq, hget, hrange⟩
    obtain ⟨f, hf, hwire, hkind, hrequired⟩ := exists_status_field
    have hheld : f.held? ms = some (.number (.integer n)) := by
      rw [Field.held?_of_required hrequired, hwire, hget]
    have hstep := Schemas.Located.member hf hheld (.here _ _)
    rw [hkind, hwire] at hstep
    exact ⟨hq.trans hstep, by omega⟩

end Model

/-- Of a payload without errors, the record is constructed unless a status code is out of range;
if one is, the error is that of the first one. -/
theorem construct_of_valid (m : Model) {v : Json}
    (valid : Model.schemas.validate m.name v = .ok []) :
    ((∃ e, Model.schemas.construct m.record v = .ok (.error e)) ↔
      ∃ p n, m.StatusOutOfRange v p n) ∧
    ((∃ r, Model.schemas.construct m.record v = .ok (.ok r)) ↔
      ¬ ∃ p n, m.StatusOutOfRange v p n) ∧
    ∀ e, Model.schemas.construct m.record v = .ok (.error e) →
      ∃ n, m.FirstStatusOutOfRange v e.path n ∧
        e.reason = .undecodable (DecodeFailure.outOfRange n).message := by
  rw [Schemas.validate_eq m.nameOf_position, Except.ok.injEq, Schemas.checkRecord_eq_nil_iff]
    at valid
  have hconstruct : Model.schemas.construct m.record v = _ :=
    Schemas.construct_of_check_eq_nil m.nameOf_position valid
  rw [hconstruct]
  cases hread : m.layout.read v with
  | ok r =>
    have hnone : ¬ ∃ p n, m.StatusOutOfRange v p n := by
      rintro ⟨p, n, hout⟩
      exact m.fits_position.not_overflow valid hread (Model.overflow_iff_statusOutOfRange.2 hout)
    refine ⟨⟨?_, fun h => absurd h hnone⟩, ⟨fun _ => hnone, fun _ => ⟨r, rfl⟩⟩, ?_⟩
    · rintro ⟨e, he⟩
      cases Except.ok.inj he
    · intro e he
      cases Except.ok.inj he
  | error e =>
    obtain ⟨n, hfailure, hoverflow, hfirst⟩ := m.fits_position.read_eq_error valid hread
    have hout : m.StatusOutOfRange v e.path n := Model.overflow_iff_statusOutOfRange.1 hoverflow
    refine ⟨⟨fun _ => ⟨_, _, hout⟩, fun _ => ⟨_, rfl⟩⟩, ⟨?_, fun h => absurd ⟨_, _, hout⟩ h⟩, ?_⟩
    · rintro ⟨r, hr⟩
      cases Except.ok.inj hr
    · intro e' he
      obtain rfl := Except.error.inj (Except.ok.inj he)
      refine ⟨n, ⟨hout, fun q k hq => ?_⟩, ?_⟩
      · exact hfirst q k (Model.overflow_iff_statusOutOfRange.2 hq)
      · exact congrArg (fun f => Reason.undecodable (DecodeFailure.message f)) hfailure

/-- Of two pages with a bad status code, the error is that of the first. -/
theorem construct_of_valid_pages :
    ∃ n, Model.sliceRecord.FirstStatusOutOfRange
      (.object [("pages", .array [
        .object [("records", .array []),
          ("response", .object [("status", .number (.integer 70000))])],
        .object [("records", .array []),
          ("response", .object [("status", .number (.integer (-1)))])]])])
      [.key "pages", .index 0, .key "response", .key "status"] n ∧
      Reason.undecodable "invalid value: integer `70000`, expected u16" =
        .undecodable (DecodeFailure.outOfRange n).message :=
  (construct_of_valid .sliceRecord rfl).2.2
    ⟨[.key "pages", .index 0, .key "response", .key "status"],
      .undecodable "invalid value: integer `70000`, expected u16"⟩ rfl

end RecordSchema
