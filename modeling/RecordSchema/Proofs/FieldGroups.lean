/-
# Groups of fields and the lines of a table

The fields of a layout fit the lines of a table if they come in the same order, with the same
keys, required where the table says so, and with codecs that fit the kinds of the lines.
`Fields.Fits` says so of a group of fields along the way in which the group is put together,
and keeps two functions: `parts` takes a record apart into the values of the group, and `build`
makes of such parts what reading the group gives.

What reading an object can give is said once and for all: `Fits.ofMembers_eq_ok` and
`Fits.ofMembers_eq_error` take a reading of the whole group apart into the readings of its
fields.  In the other direction, members are read back as they were written
(`Fits.ofMembers_of_write`), and two objects that hold the same for the fields are read alike
(`Fits.ofMembers_congr`).
-/
import RecordSchema.Codec.Layout
import RecordSchema.Except
import RecordSchema.Proofs.Location
import RecordSchema.Proofs.Members

namespace RecordSchema

/-! ## Outcomes of readings -/

lemma Fields.eq_ok_of_both {α β : Type} {x : Except Shortfall (α → β)} {y : Except Shortfall α}
    {b : β} (h : Fields.both x y = .ok b) : ∃ g a, x = .ok g ∧ y = .ok a ∧ g a = b := by
  cases x with
  | error s => cases y <;> cases h
  | ok g =>
    cases y with
    | error s => cases h
    | ok a => exact ⟨g, a, rfl, rfl, Except.ok.inj h⟩

/-! ## Single fields -/

namespace Fields

variable {κ ρ α : Type} {f : Field κ} {name : String} {c : Codec α} {ms : Members}

/-- A required field is read from what the object holds for it. -/
theorem ofMembers_required (need : f.required = true) (get : ρ → α) :
    (required name f.wire c get).ofMembers ms =
      match f.held? ms with
      | none => .error (.lacking f.wire)
      | some v => (c.read v).mapError (.unreadable f.wire) := by
  rw [Field.held?_of_required need]
  rfl

/-- A field that is not required is read from what the object holds for it, if anything. -/
theorem ofMembers_optional (need : f.required = false) (get : ρ → Option α) :
    (optional name f.wire c get).ofMembers ms =
      match f.held? ms with
      | none => .ok none
      | some v => ((c.read v).map some).mapError (.unreadable f.wire) := by
  cases hheld : f.held? ms with
  | none =>
    rcases Field.held?_eq_none_iff.1 hheld with hv | ⟨-, hv⟩ <;>
      simp [optional, hv, readNullable, Except.mapError]
  | some v =>
    obtain ⟨hget, hnull⟩ := Field.held?_eq_some_iff.1 hheld
    have hread : readNullable c.read v = (c.read v).map some := by
      unfold readNullable
      split
      · exact absurd (hnull rfl) (by simp [need])
      · rfl
    simp [optional, hget, hread]

end Fields

/-! ## Groups of fields -/

/-- A group of fields fits the lines of a table, where `value` says which codecs fit a kind. -/
inductive Fields.Fits {κ ρ : Type} (value : (α : Type) → Kind κ → Codec α → Prop) :
    {α τ : Type} → List (Field κ) → Fields ρ α → (τ → α) → (ρ → τ) → Prop
  | required {α : Type} {f : Field κ} {name : String} {c : Codec α} {get : ρ → α}
      (need : f.required = true) (codec : value α f.kind c) :
      Fits value [f] (Fields.required name f.wire c get) id get
  | optional {α : Type} {f : Field κ} {name : String} {c : Codec α} {get : ρ → Option α}
      (need : f.required = false) (codec : value α f.kind c) :
      Fits value [f] (Fields.optional name f.wire c get) id get
  | map {α β τ : Type} {table : List (Field κ)} {x : Fields ρ α} {build : τ → α} {parts : ρ → τ}
      (g : α → β) (fields : Fits value table x build parts) :
      Fits value table (x.map g) (fun p => g (build p)) parts
  | append {α β σ τ : Type} {table table' : List (Field κ)} {x : Fields ρ (α → β)}
      {y : Fields ρ α} {build : σ → α → β} {parts : ρ → σ} {build' : τ → α} {parts' : ρ → τ}
      (first : Fits value table x build parts) (later : Fits value table' y build' parts') :
      Fits value (table ++ table') (x.append y) (fun p => build p.1 (build' p.2))
        (fun r => (parts r, parts' r))

/-- What an object holds for a field, if anything, can be read. -/
def Field.Legible {κ : Type} (value : (α : Type) → Kind κ → Codec α → Prop) (f : Field κ)
    (ms : Members) : Prop :=
  ∀ v, f.held? ms = some v →
    ∃ (α : Type) (c : Codec α) (a : α), value α f.kind c ∧ c.read v = .ok a

/-- What an object holds for a field is read, and then written again. -/
inductive Field.Rewritten {κ : Type} (value : (α : Type) → Kind κ → Codec α → Prop)
    (f : Field κ) : (held written : Option Json) → Prop
  | nothing (need : f.required = false) : Rewritten value f none none
  | value {α : Type} {c : Codec α} {a : α} {v : Json} (codec : value α f.kind c)
      (read : c.read v = .ok a) : Rewritten value f (some v) (some (c.write a))

/-- What an object holds for a field, if it need hold anything, can be read. -/
def Field.Readable {κ : Type} (value : (α : Type) → Kind κ → Codec α → Prop) (f : Field κ)
    (ms : Members) : Prop :=
  ∃ written, f.Rewritten value (f.held? ms) written

lemma Field.Readable.legible {κ : Type} {value : (α : Type) → Kind κ → Codec α → Prop}
    {f : Field κ} {ms : Members} (h : f.Readable value ms) : f.Legible value ms := by
  obtain ⟨written, h⟩ := h
  intro v hv
  rw [hv] at h
  cases h with
  | @value α c a _ codec read => exact ⟨α, c, a, codec, read⟩

/-- A shortfall is the one to report of the fields of a table: the unreadable value of the
least key, or, if there is none, a key that is missing. -/
inductive Shortfall.Reported {κ : Type} (value : (α : Type) → Kind κ → Codec α → Prop)
    (table : List (Field κ)) (ms : Members) : Shortfall → Prop
  | unreadable {f : Field κ} {α : Type} {c : Codec α} {v : Json} {e : DecodeError}
      (field : f ∈ table) (codec : value α f.kind c) (held : f.held? ms = some v)
      (read : c.read v = .error e) (least : ∀ g ∈ table, g.wire < f.wire → g.Legible value ms) :
      Reported value table ms (.unreadable f.wire e)
  | lacking {f : Field κ} (field : f ∈ table) (need : f.required = true)
      (held : f.held? ms = none) (legible : ∀ g ∈ table, g.Legible value ms) :
      Reported value table ms (.lacking f.wire)

namespace Shortfall.Reported

variable {κ : Type} {value : (α : Type) → Kind κ → Codec α → Prop} {t u : List (Field κ)}
  {ms : Members} {s s' : Shortfall}

lemma append_legible (h : s.Reported value t ms) (hu : ∀ g ∈ u, g.Legible value ms) :
    s.Reported value (t ++ u) ms := by
  cases h with
  | unreadable field codec held read least =>
    refine .unreadable (List.mem_append_left _ field) codec held read fun g hg hlt => ?_
    exact (List.mem_append.1 hg).elim (fun hg => least g hg hlt) (hu g)
  | lacking field need held legible =>
    refine .lacking (List.mem_append_left _ field) need held fun g hg => ?_
    exact (List.mem_append.1 hg).elim (legible g) (hu g)

lemma legible_append (ht : ∀ g ∈ t, g.Legible value ms) (h : s.Reported value u ms) :
    s.Reported value (t ++ u) ms := by
  cases h with
  | unreadable field codec held read least =>
    refine .unreadable (List.mem_append_right _ field) codec held read fun g hg hlt => ?_
    exact (List.mem_append.1 hg).elim (ht g) fun hg => least g hg hlt
  | lacking field need held legible =>
    refine .lacking (List.mem_append_right _ field) need held fun g hg => ?_
    exact (List.mem_append.1 hg).elim (ht g) (legible g)

/-- Of the shortfalls of two groups the one that is reported is the one to report of both. -/
lemma first (h : s.Reported value t ms) (h' : s'.Reported value u ms) :
    (s.first s').Reported value (t ++ u) ms := by
  cases h with
  | @unreadable f α c v e field codec held read least =>
    cases h' with
    | @unreadable f' α' c' v' e' field' codec' held' read' least' =>
      unfold Shortfall.first
      dsimp only
      split
      -- The lesser of the two keys is reported, and everything under keys below it is legible.
      · rename_i hlt
        refine .unreadable (List.mem_append_right _ field') codec' held' read' fun g hg hg' => ?_
        exact (List.mem_append.1 hg).elim (fun hg => least g hg (String.lt_trans hg' hlt))
          fun hg => least' g hg hg'
      · rename_i hnot
        refine .unreadable (List.mem_append_left _ field) codec held read fun g hg hg' => ?_
        exact (List.mem_append.1 hg).elim (fun hg => least g hg hg')
          fun hg => least' g hg (Std.lt_of_lt_of_le hg' (String.not_lt.1 hnot))
    | lacking field' need' held' legible' =>
      exact append_legible (.unreadable field codec held read least) legible'
  | lacking field need held legible =>
    cases h' with
    | unreadable field' codec' held' read' least' =>
      exact legible_append legible (.unreadable field' codec' held' read' least')
    | lacking field' need' held' legible' =>
      exact append_legible (.lacking field need held legible) legible'

end Shortfall.Reported

/-! ## Readings of single fields -/

namespace Fields

variable {κ ρ α : Type} {value : (α : Type) → Kind κ → Codec α → Prop} {f : Field κ}
  {name : String} {c : Codec α} {ms : Members}

lemma rewritten_of_required (need : f.required = true) (codec : value α f.kind c) {get : ρ → α}
    {a : α} (hok : (required name f.wire c get).ofMembers ms = .ok a) :
    f.Rewritten value (f.held? ms) (some (c.write a)) := by
  rw [ofMembers_required need] at hok
  cases hv : f.held? ms with
  | none =>
    rw [hv] at hok
    cases hok
  | some v =>
    rw [hv] at hok
    exact .value codec (eq_ok_of_mapError hok)

lemma rewritten_of_optional (need : f.required = false) (codec : value α f.kind c)
    {get : ρ → Option α} {a : Option α}
    (hok : (optional name f.wire c get).ofMembers ms = .ok a) :
    f.Rewritten value (f.held? ms) (a.map c.write) := by
  rw [ofMembers_optional need] at hok
  cases hv : f.held? ms with
  | none =>
    rw [hv] at hok
    obtain rfl := Except.ok.inj hok
    exact .nothing need
  | some v =>
    rw [hv] at hok
    obtain ⟨b, hread, rfl⟩ := eq_ok_of_map (eq_ok_of_mapError hok)
    exact .value codec hread

lemma reported_of_required (need : f.required = true) (codec : value α f.kind c) {get : ρ → α}
    {s : Shortfall} (herror : (required name f.wire c get).ofMembers ms = .error s) :
    s.Reported value [f] ms := by
  rw [ofMembers_required need] at herror
  cases hv : f.held? ms with
  | none =>
    rw [hv] at herror
    obtain rfl := Except.error.inj herror
    refine .lacking List.mem_cons_self need hv fun g hg v hv' => ?_
    obtain rfl := List.mem_singleton.1 hg
    cases hv.symm.trans hv'
  | some v =>
    rw [hv] at herror
    obtain ⟨e, hread, rfl⟩ := eq_error_of_mapError herror
    refine .unreadable List.mem_cons_self codec hv hread fun g hg hlt => ?_
    obtain rfl := List.mem_singleton.1 hg
    exact absurd hlt (String.lt_irrefl _)

lemma reported_of_optional (need : f.required = false) (codec : value α f.kind c)
    {get : ρ → Option α} {s : Shortfall}
    (herror : (optional name f.wire c get).ofMembers ms = .error s) :
    s.Reported value [f] ms := by
  rw [ofMembers_optional need] at herror
  cases hv : f.held? ms with
  | none =>
    rw [hv] at herror
    cases herror
  | some v =>
    rw [hv] at herror
    obtain ⟨e, hread, rfl⟩ := eq_error_of_mapError herror
    refine .unreadable List.mem_cons_self codec hv (eq_error_of_map hread) fun g hg hlt => ?_
    obtain rfl := List.mem_singleton.1 hg
    exact absurd hlt (String.lt_irrefl _)

end Fields

/-! ## Readings of groups -/

namespace Fields.Fits

variable {κ ρ α τ : Type} {value : (α : Type) → Kind κ → Codec α → Prop}
  {table : List (Field κ)} {x : Fields ρ α} {build : τ → α} {parts : ρ → τ} {ms ns : Members}

lemma keys_write_sublist (h : x.Fits value table build parts) (r : ρ) :
    (Members.keys (x.write r)).Sublist (table.map Field.wire) := by
  induction h with
  | required => exact List.Sublist.refl _
  | @optional α f name c get need codec =>
    cases hget : get r with
    | none => simp [Fields.optional, hget]
    | some a => simp [Fields.optional, hget]
  | map g fields ih => exact ih
  | @append α β σ τ t u x y build parts build' parts' first later ih ih' =>
    rw [Fields.append, Members.keys_append, List.map_append]
    exact ih.append ih'

/-- In a group of several fields, each of the two halves writes the keys of its own lines. -/
lemma get?_write_append {σ β : Type} {table' : List (Field κ)} {y : Fields ρ β}
    {build' : σ → β} {parts' : ρ → σ} (h : x.Fits value table build parts)
    (h' : y.Fits value table' build' parts')
    (hnd : ((table ++ table').map Field.wire).Nodup) (r : ρ) :
    (∀ f ∈ table, Members.get? f.wire (x.write r ++ y.write r)
      = Members.get? f.wire (x.write r)) ∧
    (∀ f ∈ table', Members.get? f.wire (x.write r ++ y.write r)
      = Members.get? f.wire (y.write r)) := by
  rw [List.map_append, List.nodup_append] at hnd
  obtain ⟨-, -, hdisjoint⟩ := hnd
  constructor
  · intro f hf
    have hkey : f.wire ∉ Members.keys (y.write r) := fun hmem =>
      hdisjoint f.wire (List.mem_map.2 ⟨f, hf, rfl⟩) f.wire
        ((h'.keys_write_sublist r).subset hmem) rfl
    rw [Members.get?_append, Members.get?_eq_none_iff.2 hkey, Option.or_none]
  · intro f hf
    have hkey : f.wire ∉ Members.keys (x.write r) := fun hmem =>
      hdisjoint f.wire ((h.keys_write_sublist r).subset hmem) f.wire
        (List.mem_map.2 ⟨f, hf, rfl⟩) rfl
    rw [Members.get?_append, Members.get?_eq_none_iff.2 hkey, Option.none_or]

lemma nodup_append_wires {t u : List (Field κ)} (h : ((t ++ u).map Field.wire).Nodup) :
    (t.map Field.wire).Nodup ∧ (u.map Field.wire).Nodup := by
  rw [List.map_append, List.nodup_append] at h
  exact ⟨h.1, h.2.1⟩

/-- Under the key of a line stands a value of a codec that fits it, or nothing if it need not. -/
theorem get?_write (h : x.Fits value table build parts) (hnd : (table.map Field.wire).Nodup)
    (r : ρ) : ∀ f ∈ table,
      (∃ (β : Type) (c : Codec β) (b : β), value β f.kind c ∧
        Members.get? f.wire (x.write r) = some (c.write b)) ∨
      f.required = false ∧ Members.get? f.wire (x.write r) = none := by
  induction h with
  | @required α f name c get need codec =>
    intro g hg
    obtain rfl := List.mem_singleton.1 hg
    exact .inl ⟨α, c, get r, codec, by simp [Fields.required, Members.get?_cons]⟩
  | @optional α f name c get need codec =>
    intro g hg
    obtain rfl := List.mem_singleton.1 hg
    cases hget : get r with
    | none => exact .inr ⟨need, by simp [Fields.optional, hget]⟩
    | some a => exact .inl ⟨α, c, a, codec, by simp [Fields.optional, hget, Members.get?_cons]⟩
  | map g fields ih => exact ih hnd
  | @append α β σ τ t u x y build parts build' parts' first later ih ih' =>
    obtain ⟨hnd₁, hnd₂⟩ := nodup_append_wires hnd
    obtain ⟨hfirst, hlater⟩ := first.get?_write_append later hnd r
    intro f hf
    rw [Fields.append]
    rcases List.mem_append.1 hf with hf | hf
    · rw [hfirst f hf]
      exact ih hnd₁ f hf
    · rw [hlater f hf]
      exact ih' hnd₂ f hf

/-- Members that hold under the keys of the group what was written are read as it was. -/
theorem ofMembers_of_write (h : x.Fits value table build parts)
    (hnd : (table.map Field.wire).Nodup)
    (hcodec : ∀ (α : Type) (kind : Kind κ) (c : Codec α), value α kind c →
      ∀ a, c.read (c.write a) = .ok a ∧ c.write a ≠ .null)
    (r : ρ) (hms : ∀ f ∈ table, Members.get? f.wire ms = Members.get? f.wire (x.write r)) :
    x.ofMembers ms = .ok (build (parts r)) := by
  induction h with
  | @required α f name c get need codec =>
    have hheld : f.held? ms = some (c.write (get r)) := by
      rw [Field.held?_of_required need, hms f List.mem_cons_self]
      simp [Fields.required, Members.get?_cons]
    rw [ofMembers_required need, hheld]
    dsimp only
    rw [(hcodec α f.kind c codec (get r)).1]
    rfl
  | @optional α f name c get need codec =>
    have hget := hms f List.mem_cons_self
    rw [ofMembers_optional need]
    cases hr : get r with
    | none =>
      have hheld : f.held? ms = none := by
        refine Field.held?_eq_none_iff.2 (.inl ?_)
        simpa [Fields.optional, hr] using hget
      rw [hheld]
      rfl
    | some a =>
      obtain ⟨hread, hnull⟩ := hcodec α f.kind c codec a
      have hheld : f.held? ms = some (c.write a) := by
        refine Field.held?_eq_some_iff.2 ⟨?_, fun heq => absurd heq hnull⟩
        simpa [Fields.optional, hr, Members.get?_cons] using hget
      rw [hheld]
      dsimp only
      rw [hread]
      rfl
  | map g fields ih =>
    rw [Fields.map]
    dsimp only
    rw [ih hnd hms]
    rfl
  | @append α β σ τ t u x y build parts build' parts' first later ih ih' =>
    obtain ⟨hnd₁, hnd₂⟩ := nodup_append_wires hnd
    obtain ⟨hfirst, hlater⟩ := first.get?_write_append later hnd r
    -- The keys of the two halves are disjoint, so each finds its own entries.
    have hx : x.ofMembers ms = .ok (build (parts r)) := ih hnd₁ fun f hf =>
      (hms f (List.mem_append_left _ hf)).trans (hfirst f hf)
    have hy : y.ofMembers ms = .ok (build' (parts' r)) := ih' hnd₂ fun f hf =>
      (hms f (List.mem_append_right _ hf)).trans (hlater f hf)
    rw [Fields.append]
    dsimp only
    rw [hx, hy, Fields.both]

/-- An object that holds the same values for the fields, up to a change that the codecs do not
notice, is read in the same way. -/
theorem ofMembers_congr (h : x.Fits value table build parts) {change : Kind κ → Json → Json}
    (hms : ∀ f ∈ table, f.held? ns = (f.held? ms).map (change f.kind))
    (hcodec : ∀ f ∈ table, ∀ v, f.held? ms = some v → ∀ (α : Type) (c : Codec α),
      value α f.kind c → c.read (change f.kind v) = c.read v) :
    x.ofMembers ns = x.ofMembers ms := by
  induction h with
  | @required α f name c get need codec =>
    rw [ofMembers_required need, ofMembers_required need, hms f List.mem_cons_self]
    cases hv : f.held? ms with
    | none => rfl
    | some v =>
      rw [Option.map_some]
      dsimp only
      rw [hcodec f List.mem_cons_self v hv α c codec]
  | @optional α f name c get need codec =>
    rw [ofMembers_optional need, ofMembers_optional need, hms f List.mem_cons_self]
    cases hv : f.held? ms with
    | none => rfl
    | some v =>
      rw [Option.map_some]
      dsimp only
      rw [hcodec f List.mem_cons_self v hv α c codec]
  | map g fields ih =>
    simp only [Fields.map]
    rw [ih hms hcodec]
  | append first later ih ih' =>
    simp only [Fields.append]
    rw [ih (fun f hf => hms f (List.mem_append_left _ hf))
        (fun f hf => hcodec f (List.mem_append_left _ hf)),
      ih' (fun f hf => hms f (List.mem_append_right _ hf))
        (fun f hf => hcodec f (List.mem_append_right _ hf))]

/-- A group that is read gives what is built of parts, each of them read from what the object
holds for its field; a record with these parts is written with them. -/
theorem ofMembers_eq_ok (h : x.Fits value table build parts)
    (hnd : (table.map Field.wire).Nodup) {a : α} (hok : x.ofMembers ms = .ok a) :
    ∃ p, a = build p ∧ (∀ f ∈ table, f.Readable value ms) ∧
      ∀ r, parts r = p → ∀ f ∈ table,
        f.Rewritten value (f.held? ms) (Members.get? f.wire (x.write r)) := by
  induction h with
  | @required α f name c get need codec =>
    have hrewritten := rewritten_of_required need codec hok
    refine ⟨a, rfl, fun g hg => ?_, fun r hr g hg => ?_⟩
    · obtain rfl := List.mem_singleton.1 hg
      exact ⟨_, hrewritten⟩
    · obtain rfl := List.mem_singleton.1 hg
      obtain rfl := hr
      simpa [Fields.required, Members.get?_cons] using hrewritten
  | @optional α f name c get need codec =>
    have hrewritten := rewritten_of_optional need codec hok
    refine ⟨a, rfl, fun g hg => ?_, fun r hr g hg => ?_⟩
    · obtain rfl := List.mem_singleton.1 hg
      exact ⟨_, hrewritten⟩
    · obtain rfl := List.mem_singleton.1 hg
      obtain rfl := hr
      cases hget : get r <;> simpa [Fields.optional, hget, Members.get?_cons] using hrewritten
  | @map α β τ t x build parts g fields ih =>
    obtain ⟨b, hx, rfl⟩ := eq_ok_of_map hok
    obtain ⟨p, rfl, hreadable, hwrite⟩ := ih hnd hx
    exact ⟨p, rfl, hreadable, hwrite⟩
  | @append α β σ τ t u x y build parts build' parts' first later ih ih' =>
    obtain ⟨hnd₁, hnd₂⟩ := nodup_append_wires hnd
    obtain ⟨g, b, hx, hy, rfl⟩ := eq_ok_of_both hok
    obtain ⟨p, rfl, hreadable, hwrite⟩ := ih hnd₁ hx
    obtain ⟨p', rfl, hreadable', hwrite'⟩ := ih' hnd₂ hy
    refine ⟨(p, p'), rfl, ?_, ?_⟩
    · intro f hf
      exact (List.mem_append.1 hf).elim (hreadable f) (hreadable' f)
    · intro r hr f hf
      obtain ⟨hp, hp'⟩ := Prod.mk.inj hr
      obtain ⟨hfirst, hlater⟩ := first.get?_write_append later hnd r
      rw [Fields.append]
      rcases List.mem_append.1 hf with hf | hf
      · rw [hfirst f hf]
        exact hwrite r hp f hf
      · rw [hlater f hf]
        exact hwrite' r hp' f hf

/-- A group that cannot be read falls short in the way that is to be reported. -/
theorem ofMembers_eq_error (h : x.Fits value table build parts)
    (hnd : (table.map Field.wire).Nodup) {s : Shortfall} (herror : x.ofMembers ms = .error s) :
    s.Reported value table ms := by
  induction h generalizing s with
  | required need codec => exact reported_of_required need codec herror
  | optional need codec => exact reported_of_optional need codec herror
  | map g fields ih => exact ih hnd (eq_error_of_map herror)
  | @append α β σ τ t u x y build parts build' parts' first later ih ih' =>
    obtain ⟨hnd₁, hnd₂⟩ := nodup_append_wires hnd
    rw [Fields.append] at herror
    -- Both halves are read in any case; a half that falls short alone is the one reported.
    cases hx : x.ofMembers ms with
    | error s₁ =>
      have h₁ := ih hnd₁ hx
      cases hy : y.ofMembers ms with
      | error s₂ =>
        simp only [hx, hy, both, Except.error.injEq] at herror
        exact herror ▸ h₁.first (ih' hnd₂ hy)
      | ok b =>
        simp only [hx, hy, both, Except.error.injEq] at herror
        obtain ⟨-, -, hreadable, -⟩ := later.ofMembers_eq_ok hnd₂ hy
        exact herror ▸ h₁.append_legible fun g hg => (hreadable g hg).legible
    | ok g =>
      cases hy : y.ofMembers ms with
      | error s₂ =>
        simp only [hx, hy, both, Except.error.injEq] at herror
        obtain ⟨-, -, hreadable, -⟩ := first.ofMembers_eq_ok hnd₁ hx
        exact herror ▸ Shortfall.Reported.legible_append (fun g hg => (hreadable g hg).legible)
          (ih' hnd₂ hy)
      | ok b => simp only [hx, hy, both, reduceCtorEq] at herror

end Fields.Fits

end RecordSchema
