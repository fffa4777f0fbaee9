/-
# Where a table looks

A table looks at some of the values inside a payload: at the values of its fields, at the
items of arrays, and from there on through the tables that these refer to.  `Located` says
which values these are, along which path each of them lies and which kind it should be of.
Opaque objects are not looked into, nor are values of a wrong JSON type.

`Schemas.descend` is the induction that follows this descent, `Json.follow` the one along a path
alone, and `Schemas.EachRecord` says that something holds wherever the descent meets a record.
A value that a path leads to along the tables is there in the payload (`Located.at?_eq`).
-/
import RecordSchema.Path
import RecordSchema.Schemas
import Mathlib.Data.List.Basic

namespace RecordSchema

/-! ## The descent -/

/-- Whether a kind has something to say about the values inside a value. -/
def Kind.opens {ρ : Type} : Kind ρ → Json → Bool
  | .array _, .array _ => true
  | .record _, .object _ => true
  | _, _ => false

lemma Kind.opens_map {ρ σ : Type} (f : ρ → σ) (kind : Kind ρ) (v : Json) :
    (kind.map f).opens v = kind.opens v := by
  cases kind <;> cases v <;> rfl

/-- What is held for a field depends on the value of its key alone. -/
lemma Field.held?_congr {ρ : Type} {f : Field ρ} {ms ns : Members}
    (h : Members.get? f.wire ms = Members.get? f.wire ns) : f.held? ms = f.held? ns := by
  unfold held?
  rw [h]

lemma Field.sizeOf_lt_of_held? {ρ : Type} {f : Field ρ} {ms : Members} {v : Json}
    (h : f.held? ms = some v) : sizeOf v < sizeOf (Json.object ms) := by
  have hmem := List.sizeOf_lt_of_mem (Members.mem_of_get? (Field.get?_of_held? h))
  simp only [Prod.mk.sizeOf_spec, Json.object.sizeOf_spec] at *
  omega

/-- Induction along a path that leads to a value: what holds of the value itself, and of an object
or an array if it holds of what stands inside, holds wherever the path begins. -/
@[elab_as_elim]
theorem Json.follow {w : Json} {P : (p : Path) → (v : Json) → v.at? p = some w → Prop}
    (here : P [] w rfl)
    (key : ∀ name ms u p, Members.get? name ms = some u →
      ∀ (inside : u.at? p = some w) (h : (Json.object ms).at? (.key name :: p) = some w),
        P p u inside → P (.key name :: p) (.object ms) h)
    (index : ∀ (n : Nat) (items : List Json) u p, items[n]? = some u →
      ∀ (inside : u.at? p = some w) (h : (Json.array items).at? (.index n :: p) = some w),
        P p u inside → P (.index n :: p) (.array items) h)
    (p : Path) (v : Json) (h : v.at? p = some w) : P p v h := by
  induction p generalizing v with
  | nil =>
    obtain rfl := Option.some.inj h
    exact here
  | cons s rest ih =>
    cases v with
    | object ms =>
      cases s with
      | index n => cases h
      | key name =>
        obtain ⟨u, hu, hrest⟩ := Option.bind_eq_some_iff.1 h
        exact key name ms u rest hu hrest h (ih u hrest)
    | array items =>
      cases s with
      | key name => cases h
      | index n =>
        obtain ⟨u, hu, hrest⟩ := Option.bind_eq_some_iff.1 h
        exact index n items u rest hu hrest h (ih u hrest)
    | _ => cases s <;> cases h

namespace Schemas

variable {S : Schemas}

/-- Induction along the descent: the values of its fields come before a record, and the items
before an array. -/
@[elab_as_elim]
theorem descend {P : Kind (Fin S.size) → Json → Prop}
    (flat : ∀ kind v, kind.opens v = false → P kind v)
    (array : ∀ item items, (∀ v ∈ items, P item v) → P (.array item) (.array items))
    (record : ∀ i ms, (∀ f ∈ (S.table i).fields, ∀ v, f.held? ms = some v → P f.kind v) →
      P (.record i) (.object ms))
    (kind : Kind (Fin S.size)) (v : Json) : P kind v := by
  cases hopens : kind.opens v with
  | false => exact flat kind v hopens
  | true =>
    match kind, v with
    | .array item, .array items =>
      exact array item items fun v hv => descend flat array record item v
    | .record i, .object ms =>
      exact record i ms fun f _ v hv => descend flat array record f.kind v
termination_by sizeOf v
decreasing_by
  · have := List.sizeOf_lt_of_mem hv
    simp only [Json.array.sizeOf_spec]
    omega
  · exact Field.sizeOf_lt_of_held? hv

/-- A path leads along the tables from a value of one kind to a value of another. -/
inductive Located (S : Schemas) :
    Kind (Fin S.size) → Json → Path → Kind (Fin S.size) → Json → Prop
  /-- The descent begins at the value itself. -/
  | here (kind : Kind (Fin S.size)) (v : Json) : Located S kind v [] kind v
  /-- From a record it goes to the value of a field. -/
  | member {i : Fin S.size} {ms : Members} {f : Field (Fin S.size)} {v w : Json} {p : Path}
      {kind : Kind (Fin S.size)} (field : f ∈ (S.table i).fields) (held : f.held? ms = some v)
      (inside : Located S f.kind v p kind w) :
      Located S (.record i) (.object ms) (.key f.wire :: p) kind w
  /-- From an array it goes to an item. -/
  | item {item : Kind (Fin S.size)} {items : List Json} {n : Nat} {v w : Json} {p : Path}
      {kind : Kind (Fin S.size)} (found : items[n]? = some v)
      (inside : Located S item v p kind w) :
      Located S (.array item) (.array items) (.index n :: p) kind w

namespace Located

variable {kind kind' kind'' : Kind (Fin S.size)} {u v w : Json} {p q : Path}

theorem at?_eq (h : S.Located kind v p kind' w) : v.at? p = some w := by
  induction h with
  | here kind v => rfl
  | member field held inside ih => simp [Json.at?, Field.get?_of_held? held, ih]
  | item found inside ih => simp [Json.at?, found, ih]

theorem trans (h : S.Located kind u p kind' v) (h' : S.Located kind' v q kind'' w) :
    S.Located kind u (p ++ q) kind'' w := by
  induction h with
  | here kind v => exact h'
  | member field held inside ih => exact .member field held (ih h')
  | item found inside ih => exact .item found (ih h')

lemma of_flat (h : S.Located kind v p kind' w) (hflat : kind.opens v = false) :
    p = [] ∧ kind' = kind ∧ w = v := by
  cases h with
  | here => exact ⟨rfl, rfl, rfl⟩
  | member => simp [Kind.opens] at hflat
  | item => simp [Kind.opens] at hflat

end Located

/-! ## Records on the way -/

/-- Something holds of the table and of the members wherever the descent meets a record. -/
def EachRecord (S : Schemas) (P : Fin S.size → Members → Prop) (kind : Kind (Fin S.size))
    (v : Json) : Prop :=
  ∀ p i ms, S.Located kind v p (.record i) (.object ms) → P i ms

variable {P : Fin S.size → Members → Prop}

lemma eachRecord_array_iff {item : Kind (Fin S.size)} {items : List Json} :
    S.EachRecord P (.array item) (.array items) ↔ ∀ v ∈ items, S.EachRecord P item v := by
  constructor
  · intro h v hv p i ms hlocated
    obtain ⟨n, hn⟩ := List.getElem?_of_mem hv
    exact h _ i ms (.item hn hlocated)
  · intro h p i ms hlocated
    cases hlocated with
    | item found inside => exact h _ (List.mem_of_getElem? found) _ i ms inside

lemma eachRecord_record_iff {i : Fin S.size} {ms : Members} :
    S.EachRecord P (.record i) (.object ms) ↔
      P i ms ∧ ∀ f ∈ (S.table i).fields, ∀ v, f.held? ms = some v → S.EachRecord P f.kind v := by
  constructor
  · intro h
    exact ⟨h _ i ms (.here _ _), fun f hf v hv p j ns hlocated => h _ j ns (.member hf hv hlocated)⟩
  · rintro ⟨hhere, hinside⟩ p j ns hlocated
    cases hlocated with
    | here => exact hhere
    | member field held inside => exact hinside _ field _ held _ j ns inside

lemma eachRecord_of_flat {kind : Kind (Fin S.size)} {v : Json} (hflat : kind.opens v = false) :
    S.EachRecord P kind v := by
  intro p i ms hlocated
  obtain ⟨-, rfl, rfl⟩ := hlocated.of_flat hflat
  simp [Kind.opens] at hflat

end Schemas

end RecordSchema
