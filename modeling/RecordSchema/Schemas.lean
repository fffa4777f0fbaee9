/-
# Sets of records

A set of records is resolved when every reference in it is the position of one of its own
records.  The positions are bounded numbers, so no reference of a set leads out of it; the
names are distinct, so each of them stands for one position.  `Schemas.find?_eq_some_iff`
says that looking up a name finds just that position.
-/
import RecordSchema.Kind

namespace RecordSchema

/-- A resolved set of records. -/
structure Schemas where
  /-- The number of records. -/
  size : Nat
  /-- The tables, in the order of their declaration. -/
  tables : List (Table (Fin size))
  /-- There are as many tables as the size says. -/
  length_tables : tables.length = size
  /-- No two records have one name. -/
  nodup_names : (tables.map Table.name).Nodup

namespace Schemas

/-- The table at a position. -/
def table (S : Schemas) (i : Fin S.size) : Table (Fin S.size) :=
  S.tables.get (i.cast S.length_tables.symm)

/-- The name of the record at a position. -/
def nameOf (S : Schemas) (i : Fin S.size) : String := (S.table i).name

/-- The names of the records, in the order of their declaration. -/
def names (S : Schemas) : List String := S.tables.map Table.name

/-- Whether there are no records. -/
def isEmpty (S : Schemas) : Bool := S.size == 0

/-- The position of the record with a name. -/
def find? (S : Schemas) (name : String) : Option (Fin S.size) :=
  (S.tables.findFinIdx? fun t => t.name == name).map (Fin.cast S.length_tables)

/-- Whether there is a record with that name. -/
def contains (S : Schemas) (name : String) : Bool := (S.find? name).isSome

/-- The records as they were declared, with names for references. -/
def declarations (S : Schemas) : List Declaration := S.tables.map (Table.map S.nameOf)

/-- A kind of the set in words. -/
def describe (S : Schemas) (kind : Kind (Fin S.size)) : String := kind.describe S.nameOf

theorem nameOf_injective (S : Schemas) {i j : Fin S.size} (h : S.nameOf i = S.nameOf j) :
    i = j := by
  have distinct := List.pairwise_iff_getElem.1 S.nodup_names
  simp only [List.length_map, S.length_tables, List.getElem_map] at distinct
  rcases Nat.lt_trichotomy i.val j.val with below | same | above
  · exact absurd (by simpa [nameOf, table] using h) (distinct i.val j.val i.2 j.2 below)
  · exact Fin.ext same
  · exact absurd (by simpa [nameOf, table] using h.symm) (distinct j.val i.val j.2 i.2 above)

theorem find?_eq_some_iff (S : Schemas) {name : String} {i : Fin S.size} :
    S.find? name = some i ↔ S.nameOf i = name := by
  constructor
  · intro h
    obtain ⟨k, hk, rfl⟩ := Option.map_eq_some_iff.1 h
    have := (List.findFinIdx?_eq_some_iff.1 hk).1
    simpa [nameOf, table] using this
  · intro h
    refine Option.map_eq_some_iff.2 ⟨i.cast S.length_tables.symm, ?_, by simp⟩
    refine List.findFinIdx?_eq_some_iff.2 ⟨by simpa [nameOf, table] using h, fun j below hj => ?_⟩
    have same : S.nameOf (j.cast S.length_tables) = S.nameOf i := by
      rw [h]
      simpa [nameOf, table] using hj
    have := S.nameOf_injective same
    simp [← this] at below

end Schemas

end RecordSchema
