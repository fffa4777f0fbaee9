/-
# Resolution gives back what was declared

Binding the references of a kind replaces names by positions, and replacing the positions by
the names of the records that stand there undoes it.  So the declarations of a resolved set
are those that it was resolved from (`declarations_of_resolve`).

Records refer to each other by name, whether they are resolved or not.  `Reaches` says that
one name leads to another in any number of references.  Declarations resolve if no name is
declared twice and no reference leads nowhere (`exists_resolve_iff`), in whatever order they
stand.
-/
import RecordSchema.Schemas.Resolve
import Mathlib.Data.List.Basic
import Mathlib.Logic.Relation

namespace RecordSchema

/-! ## References by name -/

/-- A record that is declared under one name has a field that refers to another name. -/
def Refers (declared : List Declaration) (source target : String) : Prop :=
  ∃ d ∈ declared, d.name = source ∧ ∃ f ∈ d.fields, f.kind.target? = some target

/-- One name leads to another along references. -/
def Reaches (declared : List Declaration) : String → String → Prop :=
  Relation.ReflTransGen (Refers declared)

/-! ## Binding and naming -/

namespace Kind

variable {ρ σ : Type} {f : ρ → σ} {kind : Kind ρ}

lemma map_eq_record_iff {target : σ} :
    kind.map f = .record target ↔ ∃ r, kind = .record r ∧ f r = target := by
  cases kind <;> simp [map]

lemma map_eq_array_iff {item : Kind σ} :
    kind.map f = .array item ↔ ∃ item', kind = .array item' ∧ item'.map f = item := by
  cases kind <;> simp [map]

lemma map_eq_oneOf_iff {literals : List String} :
    kind.map f = .oneOf literals ↔ kind = .oneOf literals := by
  cases kind <;> simp [map]

end Kind

section Bind

variable {σ : Type} {find : String → Option σ} {name : σ → String}

/-- A bound reference has the name that was bound. -/
lemma Kind.map_of_bind (hname : ∀ s i, find s = some i → name i = s) {kind : Kind String}
    {bound : Kind σ} (h : kind.bind find = .ok bound) : bound.map name = kind := by
  induction kind generalizing bound with
  | array item ih =>
    obtain ⟨item', hitem, rfl⟩ := eq_ok_of_map h
    rw [Kind.map, ih hitem]
  | record target =>
    rw [Kind.bind] at h
    cases hfind : find target with
    | none =>
      rw [hfind] at h
      cases h
    | some i =>
      rw [hfind] at h
      obtain rfl := Except.ok.inj h
      rw [Kind.map, hname target i hfind]
  | _ =>
    obtain rfl := Except.ok.inj h
    rfl

lemma Field.map_of_bind (hname : ∀ s i, find s = some i → name i = s) {record : String}
    {f : Field String} {bound : Field σ} (h : f.bind find record = .ok bound) :
    bound.map name = f := by
  rw [Field.bind] at h
  cases hkind : f.kind.bind find with
  | error e =>
    rw [hkind] at h
    cases h
  | ok kind =>
    rw [hkind] at h
    obtain rfl := Except.ok.inj h
    rw [Field.map, Kind.map_of_bind hname hkind]

lemma Table.map_of_bind (hname : ∀ s i, find s = some i → name i = s) {d : Declaration}
    {bound : Table σ} (h : Table.bind find d = .ok bound) : bound.map name = d := by
  obtain ⟨fields, hfields, rfl⟩ := eq_ok_of_map h
  rw [Table.map, map_eq_map_of_mapM (k := id) (fun _ _ => Field.map_of_bind hname) hfields,
    List.map_id]

end Bind

/-! ## Resolution -/

variable {declared : List Declaration} {S : Schemas}

lemma name_of_position? {name : String} {i : Fin declared.length}
    (h : position? declared name = some i) : declared[i].name = name := by
  simpa using (List.findFinIdx?_eq_some_iff.1 h).1

/-- If the tables of a set are bound by positions in a list of declarations, the list is what
the set declares. -/
lemma Schemas.declarations_of_bind {find : String → Option (Fin S.size)}
    (hfind : ∀ s i, find s = some i → (declared.map Table.name)[i.val]? = some s)
    (h : declared.mapM (Table.bind find) = .ok S.tables) : S.declarations = declared := by
  refine (map_eq_map_of_mapM (k := id) (fun d table => Table.map_of_bind fun s i hs => ?_) h).trans
    (List.map_id declared)
  have hnames := hfind s i hs
  rw [← map_name_of_mapM_bind h, List.getElem?_map] at hnames
  have hlt : i.val < S.tables.length := S.length_tables.symm ▸ i.isLt
  rw [List.getElem?_eq_getElem hlt] at hnames
  exact Option.some.inj hnames

/-- The declarations of a set are the ones that it was resolved from. -/
theorem declarations_of_resolve (h : resolve declared = .ok S) : S.declarations = declared := by
  rw [resolve] at h
  split at h
  · cases h
  · split at h
    · cases h
    · rename_i tables htables
      obtain rfl := Except.ok.inj h
      -- A name is bound to the position of a declaration that has this name.
      refine Schemas.declarations_of_bind (fun s i hs => ?_) htables
      simpa using name_of_position? hs

/-! ## The records of a set by name -/

@[simp] lemma Table.wires_map {ρ σ : Type} (f : ρ → σ) (table : Table ρ) :
    (table.map f).wires = table.wires := by
  simp [wires, map, Field.map, Function.comp_def]

namespace Schemas

lemma map_table_mem (S : Schemas) (i : Fin S.size) :
    (S.table i).map S.nameOf ∈ S.declarations :=
  List.mem_map.2 ⟨_, List.get_mem _ _, rfl⟩

/-- If no declaration lists a key twice, no table of the set does. -/
lemma nodup_wires (distinct : ∀ d ∈ S.declarations, d.wires.Nodup) (i : Fin S.size) :
    (S.table i).wires.Nodup := by
  have htable := distinct _ (S.map_table_mem i)
  rwa [Table.wires_map] at htable

/-- The record that has the name of a declaration of the set has its table. -/
lemma map_table {d : Declaration} {i : Fin S.size} (hd : d ∈ S.declarations)
    (hi : S.nameOf i = d.name) : (S.table i).map S.nameOf = d := by
  obtain ⟨table, htable, rfl⟩ := List.mem_map.1 hd
  obtain ⟨n, hn, rfl⟩ := List.getElem_of_mem htable
  have hlt : n < S.size := S.length_tables ▸ hn
  obtain rfl : i = ⟨n, hlt⟩ := S.nameOf_injective hi
  rfl

/-- Every name that is declared is the name of a record. -/
lemma exists_nameOf {name : String} (h : name ∈ S.declarations.map Table.name) :
    ∃ i, S.nameOf i = name := by
  obtain ⟨d, hd, rfl⟩ := List.mem_map.1 h
  obtain ⟨table, htable, rfl⟩ := List.mem_map.1 hd
  obtain ⟨n, hn, rfl⟩ := List.getElem_of_mem htable
  exact ⟨⟨n, S.length_tables ▸ hn⟩, rfl⟩

end Schemas

/-! ## Which declarations resolve -/

section Success

variable {σ : Type} {find : String → Option σ}

lemma firstRepeated?_of_nodup {seen names : List String} (hnd : names.Nodup)
    (hfresh : ∀ name ∈ names, name ∉ seen) : firstRepeated? seen names = none := by
  induction names generalizing seen with
  | nil => rfl
  | cons name rest ih =>
    rw [List.nodup_cons] at hnd
    rw [firstRepeated?, if_neg (hfresh name List.mem_cons_self)]
    refine ih hnd.2 fun other hother hseen => ?_
    rcases List.mem_cons.1 hseen with rfl | hseen
    · exact hnd.1 hother
    · exact hfresh other (List.mem_cons_of_mem _ hother) hseen

/-- A kind is bound if what it refers to is found. -/
lemma Kind.exists_bind_iff {kind : Kind String} :
    (∃ bound, kind.bind find = .ok bound) ↔
      ∀ target, kind.target? = some target → ∃ i, find target = some i := by
  induction kind with
  | array item ih =>
    rw [Kind.target?, ← ih, Kind.bind]
    cases item.bind find with
    | error e => simp [Except.map]
    | ok bound => simp [Except.map]
  | record target =>
    rw [Kind.bind]
    cases hfind : find target with
    | none => simp [Kind.target?, hfind]
    | some i => simp [Kind.target?, hfind]
  | _ => simp [Kind.bind, Kind.target?]

lemma Table.exists_bind_iff {d : Declaration} :
    (∃ bound, Table.bind find d = .ok bound) ↔
      ∀ f ∈ d.fields, ∀ target, f.kind.target? = some target → ∃ i, find target = some i := by
  have hfield : ∀ f : Field String, (∃ bound, f.bind find d.name = .ok bound) ↔
      ∀ target, f.kind.target? = some target → ∃ i, find target = some i := by
    intro f
    rw [← Kind.exists_bind_iff, Field.bind]
    cases f.kind.bind find with
    | error target => simp
    | ok kind => simp
  simp only [← hfield, ← exists_mapM_eq_ok_iff]
  rw [Table.bind]
  cases d.fields.mapM (Field.bind find d.name) with
  | error e => simp [Except.map]
  | ok fields => simp [Except.map]

end Success

lemma exists_position?_iff {declared : List Declaration} {name : String} :
    (∃ i, position? declared name = some i) ↔ name ∈ declared.map Table.name := by
  rw [← Option.isSome_iff_exists, position?, List.isSome_findFinIdx?]
  simp

/-- Declarations resolve if no name is declared twice and each reference names a declaration. -/
theorem exists_resolve_iff {declared : List Declaration} :
    (∃ S, resolve declared = .ok S) ↔ (declared.map Table.name).Nodup ∧
      ∀ d ∈ declared, ∀ f ∈ d.fields, ∀ target, f.kind.target? = some target →
        target ∈ declared.map Table.name := by
  simp only [← exists_position?_iff, ← Table.exists_bind_iff, ← exists_mapM_eq_ok_iff]
  constructor
  · rintro ⟨S, h⟩
    rw [resolve] at h
    split at h
    · cases h
    · rename_i hunique
      split at h
      · cases h
      · rename_i tables htables
        exact ⟨(nodup_of_firstRepeated? hunique).1, tables, htables⟩
  · rintro ⟨hnd, tables, htables⟩
    have hunique : firstRepeated? [] (declared.map Table.name) = none :=
      firstRepeated?_of_nodup hnd (by simp)
    rw [resolve]
    split
    · rename_i name hrepeated
      rw [hunique] at hrepeated
      cases hrepeated
    · split
      · rename_i e hfailed
        rw [htables] at hfailed
        cases hfailed
      · exact ⟨_, rfl⟩

/-- Whether declarations resolve does not depend on their order. -/
theorem exists_resolve_iff_of_perm {declared declared' : List Declaration}
    (h : declared.Perm declared') :
    (∃ S, resolve declared = .ok S) ↔ ∃ S, resolve declared' = .ok S := by
  have hnames := h.map Table.name
  rw [exists_resolve_iff, exists_resolve_iff, hnames.nodup_iff]
  simp only [h.mem_iff, hnames.mem_iff]

/-- Nodes have children and an owner, and an owner has a root node: two records that refer to
each other, and one of them to itself. -/
def nodesAndOwners : List Declaration :=
  [⟨"Node", [⟨"label", "label", .string, true⟩,
      ⟨"children", "children", .array (.record "Node"), false⟩,
      ⟨"owner", "owner_ref", .record "Owner", false⟩]⟩,
    ⟨"Owner", [⟨"id", "id", .integer, true⟩, ⟨"root", "root", .record "Node", false⟩]⟩]

end RecordSchema
