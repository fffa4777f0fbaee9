/-
# Resolving declarations

Records are declared by name and may refer to each other, and to themselves, in any order.
`resolve` binds the names: a list of declarations becomes a set of records in which each
reference is a position in that list.  It fails if a name is declared twice, and otherwise
if a reference names no declared record; in both cases the earliest culprit is reported.
-/
import RecordSchema.Except
import RecordSchema.Schemas

namespace RecordSchema

/-- Why declarations do not make a set. -/
inductive ResolveError where
  /-- A name is declared again after its first declaration. -/
  | repeated (record : String)
  /-- A field of a record refers to a name that is not declared. -/
  | undeclared (record : String) (field : String) (target : String)
deriving DecidableEq

/-- The text of a resolution error. -/
def ResolveError.message : ResolveError → String
  | .repeated record => "Record `" ++ record ++ "` is declared more than once"
  | .undeclared record field target =>
    "Field `" ++ record ++ "." ++ field ++ "` refers to undeclared record `" ++ target ++ "`"

variable {ρ σ : Type}

/-- A kind with its reference bound by `find`, or the reference that `find` does not know. -/
def Kind.bind (find : ρ → Option σ) : Kind ρ → Except ρ (Kind σ)
  | .string => .ok .string
  | .integer => .ok .integer
  | .boolean => .ok .boolean
  | .object => .ok .object
  | .any => .ok .any
  | .oneOf literals => .ok (.oneOf literals)
  | .array item => (item.bind find).map .array
  | .record target =>
    match find target with
    | some found => .ok (.record found)
    | none => .error target

/-- A field of the given record with its reference bound. -/
def Field.bind (find : String → Option σ) (record : String) (field : Field String) :
    Except ResolveError (Field σ) :=
  match field.kind.bind find with
  | .ok kind => .ok ⟨field.name, field.wire, kind, field.required⟩
  | .error target => .error (.undeclared record field.name target)

/-- A declaration with the references of all its fields bound. -/
def Table.bind (find : String → Option σ) (declared : Declaration) :
    Except ResolveError (Table σ) :=
  (declared.fields.mapM (Field.bind find declared.name)).map (Table.mk declared.name)

/-- The first name that occurs in `names` after it has been seen. -/
def firstRepeated? (seen : List String) : List String → Option String
  | [] => none
  | name :: rest =>
    if name ∈ seen then some name else firstRepeated? (name :: seen) rest

/-- The position of the declaration of a name. -/
def position? (declared : List Declaration) (name : String) : Option (Fin declared.length) :=
  declared.findFinIdx? fun d => d.name == name

theorem nodup_of_firstRepeated? {seen names : List String}
    (h : firstRepeated? seen names = none) :
    names.Nodup ∧ ∀ name ∈ names, name ∉ seen := by
  induction names generalizing seen with
  | nil => simp
  | cons name rest ih =>
    rw [firstRepeated?] at h
    split at h
    · simp at h
    · rename_i fresh
      obtain ⟨nodup, unseen⟩ := ih h
      refine ⟨List.nodup_cons.2 ⟨fun again => unseen name again List.mem_cons_self, nodup⟩, ?_⟩
      intro other member
      rcases List.mem_cons.1 member with rfl | member
      · exact fresh
      · exact fun old => unseen other member (List.mem_cons_of_mem _ old)

theorem Table.name_bind {find : String → Option σ} {declared : Declaration} {table : Table σ}
    (h : Table.bind find declared = .ok table) : table.name = declared.name := by
  obtain ⟨fields, -, rfl⟩ := eq_ok_of_map h
  rfl

theorem map_name_of_mapM_bind {find : String → Option σ} {declared : List Declaration}
    {tables : List (Table σ)} (h : declared.mapM (Table.bind find) = .ok tables) :
    tables.map Table.name = declared.map Table.name :=
  map_eq_map_of_mapM (fun _ _ => Table.name_bind) h

/-- The set of the records that are declared. -/
def resolve (declared : List Declaration) : Except ResolveError Schemas :=
  match unique : firstRepeated? [] (declared.map Table.name) with
  | some name => .error (.repeated name)
  | none =>
    match bound : declared.mapM (Table.bind (position? declared)) with
    | .error e => .error e
    | .ok tables =>
      have names := map_name_of_mapM_bind bound
      .ok {
        size := declared.length
        tables := tables
        length_tables := by simpa using congrArg List.length names
        nodup_names := names ▸ (nodup_of_firstRepeated? unique).1 }

end RecordSchema
