/-
# Errors stand together

The errors of a value inside a payload stand next to each other among the errors of the payload,
in their own order, and only their paths tell that the value is not a payload itself.  The errors
around them lie elsewhere, and stay what they are whatever takes the place of the value
(`Schemas.Located.exists_surrounded`).  A `null` is an exception: a field that is not required has
no errors then.

So validation of a payload has the errors of every record inside of it as validation of this
record alone would report them (`validate_position`).
-/
import RecordSchema.Proofs.Violation
import Mathlib.Data.List.Nodup

namespace RecordSchema

/-! ## Putting a value in its place -/

namespace Json

/-- The value with `x` at the place that a path leads to.  A key that an object lacks is put in,
as if it had been there with `null`. -/
def put : Json → Path → Json → Json
  | _, [], x => x
  | .object ms, .key name :: rest, x =>
    .object (Members.insert name (put ((Members.get? name ms).getD .null) rest x) ms)
  | .array items, .index n :: rest, x =>
    .array (items.set n (put (items[n]?.getD .null) rest x))
  | v, _, _ => v

variable {v w x : Json} {p : Path}

@[simp] lemma put_nil (v x : Json) : v.put [] x = x := by rw [put]

lemma put_key {ms : Members} {name : String} (h : Members.get? name ms = some w) (p : Path)
    (x : Json) :
    (object ms).put (.key name :: p) x = .object (Members.insert name (w.put p x) ms) := by
  rw [put, h, Option.getD_some]

lemma put_index {items : List Json} {n : Nat} (h : items[n]? = some w) (p : Path) (x : Json) :
    (array items).put (.index n :: p) x = .array (items.set n (w.put p x)) := by
  rw [put, h, Option.getD_some]

end Json

namespace Schemas

variable {S : Schemas} {i : Fin S.size} {ms ns : Members} {v w x : Json} {p : Path}
  {kind kind' : Kind (Fin S.size)} {e : ValidationError}

/-- A value that is replaced further down is only `null` afterwards if it was replaced itself. -/
lemma Located.put_eq_null (h : S.Located kind v p kind' w) (hput : v.put p x = .null) :
    p = [] ∧ kind' = kind ∧ x = .null := by
  cases h with
  | here => exact ⟨rfl, rfl, by rwa [Json.put_nil] at hput⟩
  | member field held inside =>
    rw [Json.put_key (Field.get?_of_held? held)] at hput
    cases hput
  | item found inside =>
    rw [Json.put_index found] at hput
    cases hput

/-! ## One field of a record -/

/-- The errors of a field are those of the value of its key; of a `null` too, if it has none. -/
lemma checkField_eq {f : Field (Fin S.size)} (hget : Members.get? f.wire ms = some x)
    (hnull : x = .null → S.check f.kind x = []) :
    S.checkField f ms = (S.check f.kind x).map (.under (.key f.wire)) := by
  rw [checkField]
  cases hheld : f.held? ms with
  | some u =>
    obtain rfl := Option.some.inj (hget.symm.trans (Field.get?_of_held? hheld))
    rfl
  | none =>
    rcases Field.held?_eq_none_iff.1 hheld with habsent | ⟨-, hnone⟩
    · cases hget.symm.trans habsent
    · have hx : x = .null := Option.some.inj (hget.symm.trans hnone)
      rw [hnull hx, List.map_nil]

lemma missingFields_eq_nil_of_get? {f : Field (Fin S.size)}
    (hget : Members.get? f.wire ms = some x) : S.missingFields [f] ms = [] := by
  simp [missingFields, Members.contains, hget]

/-- In a table that lists no key twice, the other fields have other keys. -/
lemma exists_split_of_mem {table : Table (Fin S.size)} (distinct : table.wires.Nodup)
    {f : Field (Fin S.size)} (hf : f ∈ table.fields) :
    ∃ first later, table.fields = first ++ f :: later ∧
      (∀ g ∈ first, g.wire ≠ f.wire) ∧ ∀ g ∈ later, g.wire ≠ f.wire := by
  obtain ⟨first, later, hfields⟩ := List.append_of_mem hf
  rw [Table.wires, hfields, List.map_append, List.map_cons, List.nodup_middle,
    List.nodup_cons, ← List.map_append] at distinct
  have hother : ∀ g ∈ first ++ later, g.wire ≠ f.wire := fun g hg heq =>
    distinct.1 (heq ▸ List.mem_map.2 ⟨g, hg, rfl⟩)
  exact ⟨first, later, hfields, List.forall_mem_append.1 hother⟩

section OtherFields

variable {fields : List (Field (Fin S.size))} {key : String}
  (hne : ∀ f ∈ fields, f.wire ≠ key)

include hne

lemma missingFields_congr (h : ∀ other ≠ key, Members.get? other ms = Members.get? other ns) :
    S.missingFields fields ms = S.missingFields fields ns := by
  have hfilter : (fields.filter fun f => f.required && !Members.contains f.wire ms) =
      fields.filter fun f => f.required && !Members.contains f.wire ns := by
    refine List.filter_congr fun f hf => ?_
    rw [Members.contains, Members.contains, h f.wire (hne f hf)]
  rw [missingFields, missingFields, hfilter]

lemma flatMap_checkField_congr
    (h : ∀ other ≠ key, Members.get? other ms = Members.get? other ns) :
    (fields.flatMap fun f => S.checkField f ms) = fields.flatMap fun f => S.checkField f ns := by
  refine List.flatMap_congr fun f hf => ?_
  rw [checkField, checkField, Field.held?_congr (h f.wire (hne f hf))]

/-- The errors of other fields do not lie at a key or further down. -/
lemma not_prefix_of_mem_missingFields (he : e ∈ S.missingFields fields ms) :
    ¬ [.key key] <+: e.path := by
  obtain ⟨f, hf, -, -, rfl⟩ := mem_missingFields_iff.1 he
  simpa [ValidationError.missing, Path.root, Path.key] using (hne f hf).symm

lemma not_prefix_of_mem_flatMap (he : e ∈ fields.flatMap fun f => S.checkField f ms) :
    ¬ [.key key] <+: e.path := by
  obtain ⟨f, hf, hinside⟩ := List.mem_flatMap.1 he
  obtain ⟨u, -, e', -, rfl⟩ := mem_checkField_iff.1 hinside
  simpa using (hne f hf).symm

end OtherFields

/-- The errors of one field stand in two places among the errors of a record.  What stands around
them lies elsewhere, and is the same for all members that differ in the key of the field alone. -/
theorem exists_check_record_eq (distinct : (S.table i).wires.Nodup) {f : Field (Fin S.size)}
    (hf : f ∈ (S.table i).fields) (ms : Members) :
    ∃ before between after,
      (∀ e ∈ before ++ between ++ after, ¬ [.key f.wire] <+: e.path) ∧
      ∀ ns, (∀ key ≠ f.wire, Members.get? key ns = Members.get? key ms) →
        S.check (.record i) (.object ns) =
          before ++ S.missingFields [f] ns ++ between ++ S.checkField f ns ++ after := by
  obtain ⟨first, later, hfields, hfirst, hlater⟩ := exists_split_of_mem distinct hf
  refine ⟨S.missingFields first ms,
    S.missingFields later ms ++ first.flatMap fun g => S.checkField g ms,
    later.flatMap fun g => S.checkField g ms, ?_, fun ns hns => ?_⟩
  · simp only [List.forall_mem_append]
    exact ⟨⟨fun e => not_prefix_of_mem_missingFields hfirst,
      fun e => not_prefix_of_mem_missingFields hlater,
      fun e => not_prefix_of_mem_flatMap hfirst⟩, fun e => not_prefix_of_mem_flatMap hlater⟩
  · have hmissing : S.missingFields (first ++ f :: later) ns =
        S.missingFields first ns ++ S.missingFields [f] ns ++ S.missingFields later ns := by
      simp only [missingFields, ← List.map_append, ← List.filter_append, List.append_assoc,
        List.singleton_append]
    rw [check_record, hfields, hmissing, List.flatMap_append, List.flatMap_cons,
      missingFields_congr hfirst hns, missingFields_congr hlater hns,
      flatMap_checkField_congr hfirst hns, flatMap_checkField_congr hlater hns]
    simp only [List.append_assoc]

/-! ## One item of an array -/

lemma exists_index_of_mem_checkItems {item : Kind (Fin S.size)} {items : List Json} {index : Nat}
    (he : e ∈ S.checkItems item index items) :
    ∃ n rest, index ≤ n ∧ n < index + items.length ∧ e.path = .index n :: rest := by
  rw [checkItems_eq, List.mem_flatMap] at he
  obtain ⟨⟨u, n⟩, hu, he⟩ := he
  obtain ⟨e', -, rfl⟩ := List.mem_map.1 he
  obtain ⟨hle, hlt, -⟩ := List.mem_zipIdx hu
  exact ⟨n, e'.path, hle, hlt, rfl⟩

/-- The errors inside of an item stand between errors of other items. -/
theorem exists_check_array_eq {item : Kind (Fin S.size)} {items : List Json} {n : Nat}
    (found : items[n]? = some w) :
    ∃ before after,
      S.check (.array item) (.array items) =
        before ++ (S.check item w).map (.under (.index n)) ++ after ∧
      (∀ e ∈ before ++ after, ¬ [.index n] <+: e.path) ∧
      ∀ x, S.check (.array item) (.array (items.set n x)) =
        before ++ (S.check item x).map (.under (.index n)) ++ after := by
  obtain ⟨hlt, rfl⟩ := List.getElem?_eq_some_iff.1 found
  have hset : ∀ x, items.set n x = items.take n ++ x :: items.drop (n + 1) := fun x =>
    List.set_eq_take_append_cons_drop.trans (if_pos hlt)
  -- Before the item come `n` others.
  have hlen : (items.take n).length = n := List.length_take_of_le (Nat.le_of_lt hlt)
  have hsplit : ∀ x, S.check (.array item) (.array (items.set n x)) =
      S.checkItems item 0 (items.take n) ++ (S.check item x).map (.under (.index n)) ++
        S.checkItems item (n + 1) (items.drop (n + 1)) := by
    intro x
    rw [hset, check, checkItems_eq, checkItems_eq, checkItems_eq, List.zipIdx_append,
      List.zipIdx_cons, List.flatMap_append, List.flatMap_cons, hlen, Nat.zero_add,
      List.append_assoc]
  have hsame := hsplit items[n]
  rw [List.set_getElem_self] at hsame
  refine ⟨_, _, hsame, ?_, hsplit⟩
  intro e he
  rcases List.mem_append.1 he with he | he
  · obtain ⟨m, rest, -, hm, hpath⟩ := exists_index_of_mem_checkItems he
    have hne : n ≠ m := by omega
    simp [hpath, hne]
  · obtain ⟨m, rest, hm, -, hpath⟩ := exists_index_of_mem_checkItems he
    have hne : n ≠ m := by omega
    simp [hpath, hne]

/-! ## The errors at a position -/

/-- The errors of a value are those of the value `w` inside of it, to which the path `p` leads,
between errors that lie elsewhere and stay what they are whatever is put in the place of `w`. -/
structure Surrounded (S : Schemas) (kind : Kind (Fin S.size)) (v : Json) (p : Path)
    (kind' : Kind (Fin S.size)) (w : Json) (before after : List ValidationError) : Prop where
  split : S.check kind v = before ++ (S.check kind' w).map (.along p) ++ after
  elsewhere : ∀ e ∈ before ++ after, ¬ p <+: e.path
  replaced : ∀ x, (x = .null → S.check kind' x = []) →
    S.check kind (v.put p x) = before ++ (S.check kind' x).map (.along p) ++ after

lemma map_along_nil (errors : List ValidationError) : errors.map (.along []) = errors :=
  List.map_id errors

lemma map_under_along (s : Segment) (p : Path) (errors : List ValidationError) :
    (errors.map (ValidationError.along p)).map (ValidationError.under s) =
      errors.map (.along (s :: p)) :=
  List.map_map

/-- The surroundings of a value inside of another one, seen from one step further up. -/
lemma Surrounded.under {kind₁ : Kind (Fin S.size)} {u : Json} {s : Segment}
    {before after first later : List ValidationError}
    (hinner : S.Surrounded kind₁ u p kind' w before after)
    (hsplit : S.check kind v = first ++ (S.check kind₁ u).map (.under s) ++ later)
    (helsewhere : ∀ e ∈ first ++ later, ¬ [s] <+: e.path)
    (hreplaced : ∀ x, (x = .null → S.check kind' x = []) →
      S.check kind (v.put (s :: p) x) =
        first ++ (S.check kind₁ (u.put p x)).map (.under s) ++ later) :
    S.Surrounded kind v (s :: p) kind' w (first ++ before.map (.under s))
      (after.map (.under s) ++ later) where
  split := by
    rw [hsplit, hinner.split, List.map_append, List.map_append, map_under_along]
    simp only [List.append_assoc]
  elsewhere := by
    have houter : ∀ e ∈ first ++ later, ¬ s :: p <+: e.path := fun e he hprefix =>
      helsewhere e he ((List.prefix_append [s] p).trans hprefix)
    have hinside : ∀ e ∈ before ++ after, ¬ s :: p <+: (e.under s).path := fun e he hprefix =>
      hinner.elsewhere e he (List.cons_prefix_cons.1 hprefix).2
    rw [List.forall_mem_append] at houter hinside
    simp only [List.forall_mem_append, List.forall_mem_map]
    exact ⟨⟨houter.1, hinside.1⟩, hinside.2, houter.2⟩
  replaced := by
    intro x hx
    rw [hreplaced x hx, hinner.replaced x hx, List.map_append, List.map_append, map_under_along]
    simp only [List.append_assoc]

/-- Along tables that list no key twice, errors elsewhere surround those of every value that the
descent leads to. -/
theorem Located.exists_surrounded (distinct : ∀ j, (S.table j).wires.Nodup)
    (h : S.Located kind v p kind' w) :
    ∃ before after, S.Surrounded kind v p kind' w before after := by
  induction h with
  | here kind v =>
    exact ⟨[], [], by simp [map_along_nil], by simp, fun x _ => by simp [map_along_nil]⟩
  | @member i ms f v w p kind field held inside ih =>
    obtain ⟨before, after, hinner⟩ := ih
    obtain ⟨first, between, later, houter, hrecord⟩ :=
      exists_check_record_eq (distinct i) field ms
    have hget := Field.get?_of_held? held
    have hfield : S.checkField f ms = (S.check f.kind v).map (.under (.key f.wire)) := by
      rw [checkField, held]
    refine ⟨_, _, hinner.under ?_ houter fun x hx => ?_⟩
    · rw [hrecord ms fun _ _ => rfl, missingFields_eq_nil_of_get? hget, hfield, List.append_nil]
    · have hput : Members.get? f.wire (Members.insert f.wire (v.put p x) ms) =
          some (v.put p x) := by simp
      -- Only at the end of the path can a `null` take the place of the value of the field.
      have hnull : v.put p x = .null → S.check f.kind (v.put p x) = [] := by
        intro hv
        obtain ⟨rfl, rfl, rfl⟩ := inside.put_eq_null hv
        rw [Json.put_nil]
        exact hx rfl
      rw [Json.put_key hget, hrecord _ fun key hkey => by simp [hkey.symm],
        missingFields_eq_nil_of_get? hput, checkField_eq hput hnull, List.append_nil]
  | @item item items n v w p kind found inside ih =>
    obtain ⟨before, after, hinner⟩ := ih
    obtain ⟨first, later, harray, houter, hset⟩ := S.exists_check_array_eq found
    refine ⟨_, _, hinner.under harray houter fun x _ => ?_⟩
    rw [Json.put_index found, hset]

/-- A payload is an object if the descent leads to one, and is checked like any value then. -/
lemma Located.checkRecord_eq {j : Fin S.size}
    (h : S.Located (.record i) v p (.record j) (.object ms)) :
    S.checkRecord i v = S.check (.record i) v := by
  cases v with
  | object ns => rfl
  | _ =>
    obtain ⟨-, -, hv⟩ := h.of_flat rfl
    cases hv

end Schemas

/-- In a set whose tables list no key twice, validation reports the errors of a record inside of a
payload as validation of the record alone does, but for the path that leads there; and they stand
together between the errors that do not lie there. -/
theorem validate_position {declared : List Declaration} {S : Schemas} {record target : String}
    {payload : Json} {p : Path} {ms : Members} (resolved : resolve declared = .ok S)
    (distinct : ∀ d ∈ declared, d.wires.Nodup) (known : record ∈ declared.map Table.name)
    (position : Position declared record payload p (.record target) (.object ms)) :
    ∃ before inner after, S.validate target (.object ms) = .ok inner ∧
      S.validate record payload = .ok (before ++ inner.map (.along p) ++ after) ∧
      ∀ e ∈ before ++ after, ¬ p <+: e.path := by
  obtain rfl := declarations_of_resolve resolved
  obtain ⟨i, rfl⟩ := Schemas.exists_nameOf known
  obtain ⟨kind, hkind, hlocated⟩ := Schemas.position_iff_located.1 position
  obtain ⟨j, rfl, hj⟩ := Kind.map_eq_record_iff.1 hkind
  obtain ⟨before, after, hsurrounded⟩ :=
    hlocated.exists_surrounded (Schemas.nodup_wires distinct)
  have hpayload : S.checkRecord i payload =
      before ++ (S.checkRecord j (.object ms)).map (.along p) ++ after :=
    hlocated.checkRecord_eq.trans hsurrounded.split
  exact ⟨before, _, after, Schemas.validate_eq hj _,
    hpayload ▸ Schemas.validate_eq rfl payload, hsurrounded.elsewhere⟩

/-- The root of the owner of a child, with its label missing and another one wrong: before its
errors stand those of the outermost node, of the child and of the owner, and after them that of
the other child. -/
theorem validate_position_root :
    ∃ S payload p ms before inner after, resolve nodesAndOwners = .ok S ∧
      payload = .object [("children", .array [
        .object [("label", .boolean true),
          ("owner_ref", .object [("id", .string "x"), ("root", .object ms)])], .object []])] ∧
      p = [.key "children", .index 0, .key "owner_ref", .key "root"] ∧
      ms = [("children", .array [.object [("label", .null)]])] ∧
      Position nodesAndOwners "Node" payload p (.record "Node") (.object ms) ∧
      S.validate "Node" (.object ms) = .ok inner ∧
      inner = [⟨[.key "label"], .missing⟩,
        ⟨[.key "children", .index 0, .key "label"], .invalidType "string" "null"⟩] ∧
      S.validate "Node" payload = .ok (before ++ inner.map (.along p) ++ after) ∧
      before ++ inner.map (.along p) ++ after = [⟨[.key "label"], .missing⟩,
        ⟨[.key "children", .index 0, .key "label"], .invalidType "string" "boolean"⟩,
        ⟨[.key "children", .index 0, .key "owner_ref", .key "id"],
          .invalidType "integer" "string"⟩,
        ⟨Path.key p "label", .missing⟩,
        ⟨p ++ [.key "children", .index 0, .key "label"], .invalidType "string" "null"⟩,
        ⟨[.key "children", .index 1, .key "label"], .missing⟩] ∧
      ∀ e ∈ before ++ after, ¬ p <+: e.path := by
  have resolved : resolve nodesAndOwners = .ok _ := rfl
  have hposition : Position nodesAndOwners "Node" (.object [("children", .array [
      .object [("label", .boolean true), ("owner_ref", .object [("id", .string "x"),
        ("root", .object [("children", .array [.object [("label", .null)]])])])], .object []])])
      [.key "children", .index 0, .key "owner_ref", .key "root"] (.record "Node")
      (.object [("children", .array [.object [("label", .null)]])]) :=
    .field (d := nodesAndOwners[1]) (f := nodesAndOwners[1].fields[1])
      (.field (d := nodesAndOwners[0]) (f := nodesAndOwners[0].fields[2])
        (.item (.field (d := nodesAndOwners[0]) (f := nodesAndOwners[0].fields[1])
          .root (by decide) (by decide) rfl (fun h => by cases h)) rfl)
        (by decide) (by decide) rfl (fun h => by cases h))
      (by decide) (by decide) rfl (fun h => by cases h)
  obtain ⟨before, inner, after, hinner, hpayload, helsewhere⟩ :=
    validate_position resolved (by decide) (by decide) hposition
  obtain rfl := Except.ok.inj (hinner.symm.trans rfl)
  exact ⟨_, _, _, _, before, _, after, resolved, rfl, rfl, rfl, hposition, hinner, rfl, hpayload,
    Except.ok.inj (hpayload.symm.trans rfl), helsewhere⟩

end RecordSchema
