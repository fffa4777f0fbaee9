/-
# The layouts of a test read fit their tables

A codec names its kind and a layout lists its table, both with names for references.  A codec
is bound by a set if it fits every kind of the set that has this name (`Codec.Bound`), and a
group of fields if it fits all lines of this description (`Fields.Bound`).  Both go through
the ways in which layouts are put together, so that a layout is bound by a set as soon as its
declaration is among those of the set and all its fields are bound (`Codec.Bound.record`).

A record type of a test read is therefore bound by every set that has its own declaration and
those of the record types it reaches (`Model.Declared.bound`).
-/
import RecordSchema.Proofs.Fitting
import RecordSchema.Proofs.Resolution
import RecordSchema.TestRead.Catalogue

namespace RecordSchema

variable {S : Schemas} {α β : Type}

/-! ## Bound codecs -/

/-- A codec fits every kind that has the names of its own kind. -/
def Codec.Bound (S : Schemas) (c : Codec α) : Prop :=
  ∀ kind : Kind (Fin S.size), kind.map S.nameOf = c.kind → c.Fits S kind

/-- A group of fields fits all lines that have the names of its own lines. -/
def Fields.Bound {ρ τ : Type} (S : Schemas) (x : Fields ρ α) (build : τ → α) (parts : ρ → τ) :
    Prop :=
  ∀ table : List (Field (Fin S.size)), table.map (Field.map S.nameOf) = x.table →
    x.Fits (fun _ kind c => Codec.Fits S kind c) table build parts

namespace Fields.Bound

variable {ρ σ τ : Type} {name wire : String} {c : Codec α}

lemma required (h : c.Bound S) (get : ρ → α) :
    (Fields.required name wire c get).Bound S id get := by
  intro table htable
  obtain ⟨f, rfl, hf⟩ := List.map_eq_singleton_iff.1 htable
  obtain ⟨name', wire', kind, need⟩ := f
  obtain ⟨rfl, rfl, hkind, rfl⟩ := Field.mk.inj hf
  exact .required (f := ⟨name', wire', kind, true⟩) rfl (h kind hkind)

lemma optional (h : c.Bound S) (get : ρ → Option α) :
    (Fields.optional name wire c get).Bound S id get := by
  intro table htable
  obtain ⟨f, rfl, hf⟩ := List.map_eq_singleton_iff.1 htable
  obtain ⟨name', wire', kind, need⟩ := f
  obtain ⟨rfl, rfl, hkind, rfl⟩ := Field.mk.inj hf
  exact .optional (f := ⟨name', wire', kind, false⟩) rfl (h kind hkind)

variable {build : τ → α} {parts : ρ → τ}

lemma map {x : Fields ρ α} (h : x.Bound S build parts) (g : α → β) :
    (g <$> x).Bound S (fun p => g (build p)) parts :=
  fun table htable => .map g (h table htable)

lemma seq {x : Fields ρ (α → β)} {build' : σ → α → β} {parts' : ρ → σ} {y : Fields ρ α}
    (h : x.Bound S build' parts') (h' : y.Bound S build parts) :
    (x <*> y).Bound S (fun p => build' p.1 (build p.2)) (fun r => (parts' r, parts r)) := by
  intro table htable
  obtain ⟨t, u, rfl, ht, hu⟩ := List.map_eq_append_iff.1 htable
  exact .append (h t ht) (h' u hu)

end Fields.Bound

namespace Codec.Bound

lemma text : Codec.text.Bound S := by
  intro kind hkind
  cases kind <;> first | exact .text | cases hkind

lemma flag : Codec.flag.Bound S := by
  intro kind hkind
  cases kind <;> first | exact .flag | cases hkind

lemma word : Codec.word.Bound S := by
  intro kind hkind
  cases kind <;> first | exact .word | cases hkind

lemma document : Codec.document.Bound S := by
  intro kind hkind
  cases kind <;> first | exact .document | cases hkind

lemma list {c : Codec α} (h : c.Bound S) : (Codec.list c).Bound S := by
  intro kind hkind
  cases kind with
  | array item => exact .list (h item (Kind.array.inj hkind))
  | _ => cases hkind

lemma literals {ls : Literals α} (found : ∀ a, ls.find? (ls.literal a) = some a) :
    ls.codec.Bound S := by
  intro kind hkind
  cases kind with
  | oneOf literals =>
    obtain rfl : literals = ls.all := Kind.oneOf.inj hkind
    exact .literals found
  | _ => cases hkind

/-- A layout whose fields are bound is bound by every set that has its declaration. -/
theorem record {τ : Type} {layout : Layout α} {build : τ → α} {parts : α → τ}
    (declared : layout.declaration ∈ S.declarations)
    (distinct : layout.declaration.wires.Nodup) (fields : layout.fields.Bound S build parts)
    (build_parts : ∀ r, build (parts r) = r) (parts_build : ∀ p, parts (build p) = p) :
    layout.codec.Bound S := by
  intro kind hkind
  cases kind with
  | record i =>
    have htable := Schemas.map_table declared (Kind.record.inj hkind)
    rw [← htable, Table.wires_map] at distinct
    exact .record distinct (fields (S.table i).fields (congrArg Table.fields htable)) id
      build_parts parts_build
  | _ => cases hkind

end Codec.Bound

/-! ## The record types of a test read -/

lemma HttpMethod.find?_literal (m : HttpMethod) :
    HttpMethod.literals.find? (HttpMethod.literals.literal m) = some m := by
  cases m <;> rfl

lemma LogLevel.find?_literal (l : LogLevel) :
    LogLevel.literals.find? (LogLevel.literals.literal l) = some l := by
  cases l <;> rfl

namespace Model

/-- A list of declarations has the own declarations of a record type and of all record types
that it reaches. -/
def Declared (declared : List Declaration) (m : Model) : Prop :=
  ∀ n : Model, Reaches declarations m.name n.name → n.layout.declaration ∈ declared

instance (source target : String) : Decidable (Refers declarations source target) :=
  inferInstanceAs (Decidable (∃ d ∈ declarations, d.name = source ∧
    ∃ f ∈ d.fields, f.kind.target? = some target))

namespace Declared

variable {declared : List Declaration} {m n : Model}

lemma mem (h : m.Declared declared) : m.layout.declaration ∈ declared := h m .refl

lemma of_refers (h : m.Declared declared) (href : Refers declarations m.name n.name) :
    n.Declared declared :=
  fun k hk => h k (hk.head href)

lemma bound_sliceDescriptor (h : sliceDescriptor.Declared S.declarations) :
    SliceDescriptor.layout.codec.Bound S :=
  .record h.mem (by decide)
    (Fields.Bound.optional .text _ |>.map _
      |>.seq (.optional .text _))
    (fun _ => rfl) (fun _ => rfl)

lemma bound_httpRequest (h : httpRequest.Declared S.declarations) :
    HttpRequest.layout.codec.Bound S :=
  .record h.mem (by decide)
    (Fields.Bound.required .text _ |>.map _
      |>.seq (.required (.literals HttpMethod.find?_literal) _)
      |>.seq (.optional .document _)
      |>.seq (.optional .document _)
      |>.seq (.optional .document _))
    (fun _ => rfl) (fun _ => rfl)

lemma bound_httpResponse (h : httpResponse.Declared S.declarations) :
    HttpResponse.layout.codec.Bound S :=
  .record h.mem (by decide)
    (Fields.Bound.required .word _ |>.map _
      |>.seq (.optional .text _)
      |>.seq (.optional .document _))
    (fun _ => rfl) (fun _ => rfl)

lemma bound_pageRecord (h : pageRecord.Declared S.declarations) :
    PageRecord.layout.codec.Bound S :=
  have request := bound_httpRequest (h.of_refers (by decide))
  have response := bound_httpResponse (h.of_refers (by decide))
  .record h.mem (by decide)
    (Fields.Bound.required (.list .document) _ |>.map _
      |>.seq (.optional request _)
      |>.seq (.optional response _))
    (fun _ => rfl) (fun _ => rfl)

lemma bound_sliceRecord (h : sliceRecord.Declared S.declarations) :
    SliceRecord.layout.codec.Bound S :=
  have page := bound_pageRecord (h.of_refers (by decide))
  have descriptor := bound_sliceDescriptor (h.of_refers (by decide))
  .record h.mem (by decide)
    (Fields.Bound.required (.list page) _ |>.map _
      |>.seq (.optional descriptor _)
      |>.seq (.optional .document _))
    (fun _ => rfl) (fun _ => rfl)

lemma bound_logMessage (h : logMessage.Declared S.declarations) :
    LogMessage.layout.codec.Bound S :=
  .record h.mem (by decide)
    (Fields.Bound.required .text _ |>.map _
      |>.seq (.required (.literals LogLevel.find?_literal) _))
    (fun _ => rfl) (fun _ => rfl)

lemma bound_streamRead (h : streamRead.Declared S.declarations) :
    StreamRead.layout.codec.Bound S :=
  have message := bound_logMessage (h.of_refers (by decide))
  have slice := bound_sliceRecord (h.of_refers (by decide))
  .record h.mem (by decide)
    (Fields.Bound.required (.list message) _ |>.map _
      |>.seq (.required (.list slice) _)
      |>.seq (.required .flag _)
      |>.seq (.optional .document _))
    (fun _ => rfl) (fun _ => rfl)

/-- A record type is bound by every set that has its own declaration and those of the record
types that it reaches. -/
theorem bound (h : m.Declared S.declarations) : m.layout.codec.Bound S := by
  cases m with
  | streamRead => exact bound_streamRead h
  | logMessage => exact bound_logMessage h
  | sliceRecord => exact bound_sliceRecord h
  | pageRecord => exact bound_pageRecord h
  | httpRequest => exact bound_httpRequest h
  | httpResponse => exact bound_httpResponse h
  | sliceDescriptor => exact bound_sliceDescriptor h

end Declared

/-- Every record type is declared with all that it reaches. -/
lemma declared_declarations (m : Model) : m.Declared declarations := by
  intro n _
  cases n <;> decide

/-- The record with the name of a record type fits it. -/
theorem fits {declared : List Declaration} {m : Model} (resolved : resolve declared = .ok S)
    (own : m.Declared declared) :
    ∃ i, S.nameOf i = m.name ∧ Codec.Fits S (.record i) m.layout.codec := by
  obtain rfl := declarations_of_resolve resolved
  obtain ⟨i, hi⟩ := Schemas.exists_nameOf (List.mem_map.2 ⟨_, own.mem, rfl⟩)
  exact ⟨i, hi, own.bound _ (congrArg Kind.record hi)⟩

/-! ## The set of all record types -/

lemma isSome_find?_name (m : Model) : (schemas.find? m.name).isSome = true := by
  obtain ⟨i, hi, -⟩ := fits resolve_declarations m.declared_declarations
  rw [schemas.find?_eq_some_iff.2 hi]
  rfl

/-- The position of a record type in the set. -/
def position (m : Model) : Fin schemas.size := (schemas.find? m.name).get m.isSome_find?_name

@[simp] theorem nameOf_position (m : Model) : schemas.nameOf m.position = m.name :=
  schemas.find?_eq_some_iff.1 (Option.some_get m.isSome_find?_name).symm

/-- In the set of all record types, every one of them fits its record. -/
theorem fits_position (m : Model) :
    Codec.Fits schemas (.record m.position) m.layout.codec := by
  obtain ⟨i, hi, hfits⟩ := fits resolve_declarations m.declared_declarations
  rwa [schemas.nameOf_injective (hi.trans m.nameOf_position.symm)] at hfits

/-- The table at the position of a record type is its own. -/
lemma map_table_position (m : Model) :
    (schemas.table m.position).map schemas.nameOf = m.layout.declaration := by
  have hmem : m.layout.declaration ∈ schemas.declarations := by
    rw [declarations_of_resolve resolve_declarations]
    exact m.declared_declarations.mem
  exact Schemas.map_table hmem m.nameOf_position

/-- Each field of a layout is a field of the table at its position. -/
lemma exists_field {m : Model} {f : Field String} (hf : f ∈ m.layout.table) :
    ∃ g ∈ (schemas.table m.position).fields, g.map schemas.nameOf = f := by
  have hmem : f ∈ ((schemas.table m.position).map schemas.nameOf).fields := by
    rw [map_table_position]
    exact hf
  exact List.mem_map.1 hmem

/-- No table of the set lists a key twice. -/
theorem nodup_wires (i : Fin schemas.size) : (schemas.table i).wires.Nodup := by
  have hdeclared : schemas.declarations = declarations :=
    declarations_of_resolve resolve_declarations
  have hall : ∀ d ∈ declarations, d.wires.Nodup := by decide
  exact Schemas.nodup_wires (hdeclared ▸ hall) i

end Model

end RecordSchema
