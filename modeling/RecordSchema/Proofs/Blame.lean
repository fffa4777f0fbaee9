/-
# Which declaration is to blame

Declarations that do not make a set are refused with an error, and it names the earliest culprit.
A name that is declared twice is reported at its second declaration, and before anything else.  If
there is none, it is the first record with a reference that leads nowhere, and of that record the
first such field.  References of a record to itself, to records that are declared later and in
circles lead somewhere, so they are no reason to refuse anything.

`resolve_outcome` says this for all declarations.  It rests on what the three traversals report:
the one that looks for names (`firstRepeated?_eq_some_iff`), and the ones that bind the references
of the declarations and of the fields of one of them (`Table.bind_eq_error_iff`).
-/
import RecordSchema.Proofs.Resolution

namespace RecordSchema

/-! ## Culprits -/

/-- A name occurs for a second time, and none does so before. -/
def FirstRepeated (names : List String) (name : String) : Prop :=
  ∃ before after, names = before ++ name :: after ∧ name ∈ before ∧ before.Nodup

/-- A field refers to a name that is not declared. -/
def Dangles (declared : List Declaration) (f : Field String) (target : String) : Prop :=
  f.kind.target? = some target ∧ target ∉ declared.map Table.name

/-- Some field of a record refers to a name that is not declared. -/
def HasDangling (declared : List Declaration) (d : Declaration) : Prop :=
  ∃ f ∈ d.fields, ∃ target, Dangles declared f target

/-! ## Repeated names -/

theorem firstRepeated?_eq_some_iff {seen names : List String} {name : String} :
    firstRepeated? seen names = some name ↔
      ∃ before after, names = before ++ name :: after ∧ (name ∈ before ∨ name ∈ seen) ∧
        before.Nodup ∧ ∀ other ∈ before, other ∉ seen := by
  induction names generalizing seen with
  | nil => simp [firstRepeated?]
  | cons first rest ih =>
    rw [firstRepeated?]
    split
    · rename_i hseen
      constructor
      · intro h
        obtain rfl := Option.some.inj h
        exact ⟨[], rest, rfl, .inr hseen, List.nodup_nil, List.forall_mem_nil _⟩
      · rintro ⟨before, after, hsplit, -, -, hfresh⟩
        cases before with
        | nil => rw [(List.cons.inj hsplit).1]
        | cons b before =>
          obtain ⟨rfl, -⟩ := List.cons.inj hsplit
          exact absurd hseen (hfresh first List.mem_cons_self)
    · rename_i hfirst
      rw [ih]
      constructor
      · rintro ⟨before, after, rfl, hagain, hnd, hfresh⟩
        have hne : first ∉ before := fun h => hfresh first h List.mem_cons_self
        refine ⟨first :: before, after, rfl, ?_, List.nodup_cons.2 ⟨hne, hnd⟩, ?_⟩
        · simpa [or_assoc, or_comm, or_left_comm] using hagain
        · exact List.forall_mem_cons.2 ⟨hfirst, fun other hother hseen =>
            hfresh other hother (List.mem_cons_of_mem _ hseen)⟩
      · rintro ⟨before, after, hsplit, hagain, hnd, hfresh⟩
        cases before with
        | nil =>
          obtain ⟨rfl, rfl⟩ := List.cons.inj hsplit
          exact absurd (hagain.resolve_left List.not_mem_nil) hfirst
        | cons b before =>
          obtain ⟨rfl, rfl⟩ := List.cons.inj hsplit
          obtain ⟨hne, hnd⟩ := List.nodup_cons.1 hnd
          refine ⟨before, after, rfl, ?_, hnd, fun other hother hseen => ?_⟩
          · simpa [or_assoc, or_comm, or_left_comm] using hagain
          · rcases List.mem_cons.1 hseen with rfl | hseen
            · exact hne hother
            · exact hfresh other (List.mem_cons_of_mem _ hother) hseen

lemma firstRepeated?_nil_eq_some_iff {names : List String} {name : String} :
    firstRepeated? [] names = some name ↔ FirstRepeated names name := by
  rw [firstRepeated?_eq_some_iff]
  simp [FirstRepeated]

lemma firstRepeated?_nil_eq_none_iff {names : List String} :
    firstRepeated? [] names = none ↔ names.Nodup :=
  ⟨fun h => (nodup_of_firstRepeated? h).1, fun h => firstRepeated?_of_nodup h (by simp)⟩

lemma exists_firstRepeated_iff {names : List String} :
    (∃ name, FirstRepeated names name) ↔ ¬ names.Nodup := by
  simp only [← firstRepeated?_nil_eq_some_iff, ← firstRepeated?_nil_eq_none_iff,
    ← Option.isSome_iff_exists, Option.isSome_iff_ne_none, ne_eq]

/-! ## References that lead nowhere -/

section Bind

variable {σ : Type} {find : String → Option σ}

/-- A kind is not bound if what it refers to is not found. -/
lemma Kind.bind_eq_error_iff {kind : Kind String} {target : String} :
    kind.bind find = .error target ↔ kind.target? = some target ∧ find target = none := by
  induction kind with
  | array item ih =>
    rw [Kind.target?, ← ih, Kind.bind]
    cases item.bind find with
    | error e => simp [Except.map]
    | ok bound => simp [Except.map]
  | record name =>
    rw [Kind.bind, Kind.target?]
    cases hfind : find name with
    | none =>
      constructor
      · intro h
        obtain rfl := Except.error.inj h
        exact ⟨rfl, hfind⟩
      · rintro ⟨h, -⟩
        exact congrArg Except.error (Option.some.inj h)
    | some i =>
      constructor
      · intro h
        cases h
      · rintro ⟨h, hnone⟩
        rw [← Option.some.inj h, hfind] at hnone
        cases hnone
  | _ => simp [Kind.bind, Kind.target?]

lemma Field.bind_eq_error_iff {record : String} {f : Field String} {e : ResolveError} :
    f.bind find record = .error e ↔ ∃ target, f.kind.target? = some target ∧
      find target = none ∧ e = .undeclared record f.name target := by
  simp only [← and_assoc, ← Kind.bind_eq_error_iff]
  rw [Field.bind]
  cases f.kind.bind find with
  | error target => simp [eq_comm]
  | ok kind => simp

/-- A declaration is not bound for the sake of the first of its fields that is not. -/
lemma Table.bind_eq_error_iff {d : Declaration} {e : ResolveError} :
    Table.bind find d = .error e ↔
      ∃ f, First (fun f => ∃ target, f.kind.target? = some target ∧ find target = none)
        d.fields f ∧ ∃ target, f.kind.target? = some target ∧ find target = none ∧
          e = .undeclared d.name f.name target := by
  have hfields : Table.bind find d = .error e ↔
      d.fields.mapM (Field.bind find d.name) = .error e := by
    rw [Table.bind]
    cases d.fields.mapM (Field.bind find d.name) <;> simp [Except.map]
  have hfails : (fun f : Field String => ∃ e, f.bind find d.name = .error e)
      = fun f => ∃ target, f.kind.target? = some target ∧ find target = none := by
    funext f
    simp only [Field.bind_eq_error_iff, eq_iff_iff]
    constructor
    · rintro ⟨e, target, href, hnone, -⟩
      exact ⟨target, href, hnone⟩
    · rintro ⟨target, href, hnone⟩
      exact ⟨_, target, href, hnone, rfl⟩
  rw [hfields, mapM_eq_error_iff, hfails]
  simp only [Field.bind_eq_error_iff]

end Bind

/-! ## The outcome -/

variable {declared : List Declaration}

lemma position?_eq_none_iff {name : String} :
    position? declared name = none ↔ name ∉ declared.map Table.name := by
  rw [← exists_position?_iff, ← Option.isSome_iff_exists, Option.not_isSome_iff_eq_none]

/-- Names are looked at before references. -/
lemma resolve_eq_error_iff {e : ResolveError} :
    resolve declared = .error e ↔
      (∃ name, FirstRepeated (declared.map Table.name) name ∧ e = .repeated name) ∨
      (declared.map Table.name).Nodup ∧
        declared.mapM (Table.bind (position? declared)) = .error e := by
  simp only [← firstRepeated?_nil_eq_some_iff, ← firstRepeated?_nil_eq_none_iff]
  rw [resolve]
  split
  · rename_i name hname
    simp [hname, eq_comm]
  · rename_i hnone
    split
    · rename_i e' he'
      simp [hnone, he']
    · rename_i tables htables
      simp [hnone, htables]

lemma hasDangling_iff {d : Declaration} :
    HasDangling declared d ↔ ∃ e, Table.bind (position? declared) d = .error e := by
  have hbound : (∃ bound, Table.bind (position? declared) d = .ok bound) ↔
      ¬ HasDangling declared d := by
    simp only [Table.exists_bind_iff, exists_position?_iff, HasDangling, Dangles, not_exists,
      not_and, not_not]
  rw [← not_iff_not, ← hbound]
  cases Table.bind (position? declared) d <;> simp

/-- The references are not bound for the sake of the first field, in the first declaration, that
refers to a name which is not declared. -/
lemma mapM_bind_eq_error_iff {e : ResolveError} :
    declared.mapM (Table.bind (position? declared)) = .error e ↔
      ∃ d f target, First (HasDangling declared) declared d ∧
        First (fun f => ∃ target, Dangles declared f target) d.fields f ∧
        Dangles declared f target ∧ e = .undeclared d.name f.name target := by
  have hfails : (fun d => ∃ e, Table.bind (position? declared) d = .error e)
      = HasDangling declared := funext fun d => propext hasDangling_iff.symm
  rw [mapM_eq_error_iff, hfails]
  simp only [Table.bind_eq_error_iff, position?_eq_none_iff, Dangles]
  constructor
  · rintro ⟨d, hd, f, hf, target, href, hnone, he⟩
    exact ⟨d, f, target, hd, hf, ⟨href, hnone⟩, he⟩
  · rintro ⟨d, f, target, hd, hf, ⟨href, hnone⟩, he⟩
    exact ⟨d, hd, f, hf, target, href, hnone, he⟩

/-- The first name to be declared again is reported. -/
lemma resolve_eq_repeated_iff {name : String} :
    resolve declared = .error (.repeated name) ↔
      FirstRepeated (declared.map Table.name) name := by
  simp [resolve_eq_error_iff, mapM_bind_eq_error_iff]

/-- The first field that refers to a name which is not declared is reported, in the first record
that has such a field, if no name is declared again. -/
lemma resolve_eq_undeclared_iff {record field target : String} :
    resolve declared = .error (.undeclared record field target) ↔
      (declared.map Table.name).Nodup ∧ ∃ d f,
        First (HasDangling declared) declared d ∧ d.name = record ∧
        First (fun f => ∃ target, Dangles declared f target) d.fields f ∧ f.name = field ∧
        Dangles declared f target := by
  rw [resolve_eq_error_iff, mapM_bind_eq_error_iff]
  constructor
  · rintro (⟨name, -, he⟩ | ⟨hnd, d, f, target', hd, hf, htarget, he⟩)
    · cases he
    · cases he
      exact ⟨hnd, d, f, hd, rfl, hf, rfl, htarget⟩
  · rintro ⟨hnd, d, f, hd, rfl, hf, rfl, htarget⟩
    exact .inr ⟨hnd, d, f, target, hd, hf, htarget, rfl⟩

/-- Of all declarations, those resolve that declare no name twice and refer to declared names
only.  Otherwise the first name to be declared again is reported; and if there is none, the first
field that refers to a name which is not declared, in the first record that has such a field. -/
theorem resolve_outcome (declared : List Declaration) :
    (∀ name, resolve declared = .error (.repeated name) ↔
      FirstRepeated (declared.map Table.name) name) ∧
    ((∃ name, resolve declared = .error (.repeated name)) ↔
      ¬ (declared.map Table.name).Nodup) ∧
    (∀ record field target, resolve declared = .error (.undeclared record field target) ↔
      (declared.map Table.name).Nodup ∧ ∃ d f,
        First (HasDangling declared) declared d ∧ d.name = record ∧
        First (fun f => ∃ target, Dangles declared f target) d.fields f ∧ f.name = field ∧
        Dangles declared f target) ∧
    ((∃ record field target, resolve declared = .error (.undeclared record field target)) ↔
      (declared.map Table.name).Nodup ∧ ∃ d ∈ declared, HasDangling declared d) ∧
    ((∃ S, resolve declared = .ok S) ↔
      (declared.map Table.name).Nodup ∧ ∀ d ∈ declared, ¬ HasDangling declared d) := by
  have hrepeats : (∃ name, resolve declared = .error (.repeated name)) ↔
      ¬ (declared.map Table.name).Nodup := by
    simp only [resolve_eq_repeated_iff, exists_firstRepeated_iff]
  have hresolves : (∃ S, resolve declared = .ok S) ↔
      (declared.map Table.name).Nodup ∧ ∀ d ∈ declared, ¬ HasDangling declared d := by
    rw [exists_resolve_iff]
    simp only [HasDangling, Dangles, not_exists, not_and, not_not]
  refine ⟨fun _ => resolve_eq_repeated_iff, hrepeats, fun _ _ _ => resolve_eq_undeclared_iff, ?_,
    hresolves⟩
  constructor
  · rintro ⟨record, field, target, h⟩
    obtain ⟨hnd, d, -, hd, -⟩ := resolve_eq_undeclared_iff.1 h
    exact ⟨hnd, d, hd.mem, hd.1⟩
  · rintro ⟨hnd, d, hd, hdangling⟩
    -- What does not resolve and repeats no name is refused for a reference.
    cases h : resolve declared with
    | ok S => exact absurd hdangling ((hresolves.1 ⟨S, h⟩).2 d hd)
    | error e =>
      cases e with
      | repeated name => exact absurd hnd (hrepeats.1 ⟨name, h⟩)
      | undeclared record field target => exact ⟨record, field, target, rfl⟩

end RecordSchema
