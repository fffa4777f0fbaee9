/-
# Errors are independent

The tables declare a kind at the path of every error, that of a missing key included
(`Schemas.kindAt?`).  When a value without errors takes the place of the value there, or is put
in for the key, this error is gone and all the others are there as before, in the same order
(`validate_put`).  So a payload can be mended one error at a time.

An error is mended where it arises, at a value that is not looked into or at an object that lacks
a key, and from there on every step of the descent only adds errors that lie elsewhere
(`Schemas.Located.exists_mended`).
-/
import RecordSchema.Proofs.Locality
import RecordSchema.Proofs.Precedence

namespace RecordSchema

/-! ## What is put in a place is found there -/

namespace Json

variable {v w x : Json} {p : Path}

/-- To put a value at the end of a path is to change the value on the way there. -/
lemma put_append (h : v.at? p = some w) (q : Path) (x : Json) :
    v.put (p ++ q) x = v.put p (w.put q x) := by
  induction p, v, h using follow with
  | here => rw [List.nil_append, put_nil]
  | key name ms u p found inside h ih =>
    rw [List.cons_append, put_key found, put_key found, ih]
  | index n items u p found inside h ih =>
    rw [List.cons_append, put_index found, put_index found, ih]

/-- From the place of a value, a path goes on to what was put inside of it. -/
lemma at?_put_append (h : v.at? p = some w) (q : Path) (x : Json) :
    (v.put p x).at? (p ++ q) = x.at? q := by
  induction p, v, h using follow with
  | here => rw [put_nil, List.nil_append]
  | key name ms u p found inside h ih =>
    rw [put_key found, List.cons_append, at?, Members.get?_insert, if_pos rfl,
      Option.bind_some, ih]
  | index n items u p found inside h ih =>
    have hlt : n < items.length := (List.getElem?_eq_some_iff.1 found).1
    rw [put_index found, List.cons_append, at?, List.getElem?_set_self hlt, Option.bind_some, ih]

lemma eq_nil_of_at?_null (h : null.at? p = some x) : p = [] := by
  cases p with
  | nil => rfl
  | cons s rest => cases s <;> cases h

end Json

namespace Schemas

variable {S : Schemas} {i : Fin S.size} {ms : Members} {payload v w x : Json} {p : Path}
  {kind kind' target : Kind (Fin S.size)} {e : ValidationError}

/-! ## The kind at a path -/

/-- The kind that the tables declare at a path, where a value of the given kind should be. -/
def kindAt? (S : Schemas) : Kind (Fin S.size) → Path → Option (Kind (Fin S.size))
  | kind, [] => some kind
  | .record i, .key name :: rest => ((S.table i).line? name).bind fun f => S.kindAt? f.kind rest
  | .array item, .index _ :: rest => S.kindAt? item rest
  | _, _ :: _ => none

@[simp] lemma kindAt?_nil (S : Schemas) (kind : Kind (Fin S.size)) :
    S.kindAt? kind [] = some kind := by rw [kindAt?]

lemma kindAt?_key (distinct : (S.table i).wires.Nodup) {f : Field (Fin S.size)}
    (hf : f ∈ (S.table i).fields) (rest : Path) :
    S.kindAt? (.record i) (.key f.wire :: rest) = S.kindAt? f.kind rest := by
  rw [kindAt?, Table.line?_of_mem distinct hf, Option.bind_some]

/-- Where the descent leads, the tables declare what comes further down. -/
lemma Located.kindAt?_append (distinct : ∀ j, (S.table j).wires.Nodup)
    (h : S.Located kind v p kind' w) (q : Path) :
    S.kindAt? kind (p ++ q) = S.kindAt? kind' q := by
  induction h with
  | here => rfl
  | member field held inside ih => rw [List.cons_append, kindAt?_key (distinct _) field, ih]
  | item found inside ih => rw [List.cons_append, kindAt?, ih]

/-! ## Mending one error -/

/-- The tables declare a kind at the path of an error, and when a value without errors of this
kind is put there, just the errors before and after it are left. -/
structure Mended (S : Schemas) (kind : Kind (Fin S.size)) (v : Json) (e : ValidationError)
    (target : Kind (Fin S.size)) (before after : List ValidationError) : Prop where
  declared : S.kindAt? kind e.path = some target
  split : S.check kind v = before ++ e :: after
  found : ∀ x, (v.put e.path x).at? e.path = some x
  removed : ∀ x, S.check target x = [] → S.check kind (v.put e.path x) = before ++ after

/-- The error of a value that is not looked into is its only one. -/
lemma mended_of_flat (hflat : kind.opens v = false) (he : e ∈ S.check kind v) :
    S.Mended kind v e kind [] [] := by
  rcases check_eq_nil_or_singleton hflat with hnil | ⟨reason, hsingle⟩
  · rw [hnil] at he
    cases he
  · rw [hsingle] at he
    obtain rfl := List.mem_singleton.1 he
    exact ⟨kindAt?_nil S kind, hsingle, fun x => by rw [Path.root, Json.put_nil, Json.at?],
      fun x hx => by rw [Path.root, Json.put_nil, hx, List.append_nil]⟩

/-- A key that is missing is put in without a trace in the errors of other fields. -/
lemma exists_mended_missing (distinct : (S.table i).wires.Nodup) {f : Field (Fin S.size)}
    (hf : f ∈ (S.table i).fields) (required : f.required = true)
    (absent : Members.get? f.wire ms = none) :
    ∃ before after, S.Mended (.record i) (.object ms) (.missing (Path.root.key f.wire)) f.kind
      before after := by
  obtain ⟨before, between, after, -, hrecord⟩ := exists_check_record_eq distinct hf ms
  have hput : ∀ x, (Json.object ms).put [.key f.wire] x =
      .object (Members.insert f.wire x ms) := fun x => by rw [Json.put, Json.put_nil]
  have hget : ∀ x, Members.get? f.wire (Members.insert f.wire x ms) = some x := fun x => by simp
  refine ⟨before, between ++ after, ?_, ?_, fun x => ?_, fun x hx => ?_⟩
  · exact (kindAt?_key distinct hf []).trans (kindAt?_nil S f.kind)
  · have hmissing : S.missingFields [f] ms = [.missing (Path.root.key f.wire)] := by
      simp [missingFields, Members.contains, required, absent]
    have hfield : S.checkField f ms = [] := by
      rw [checkField, Field.held?_eq_none_iff.2 (.inl absent)]
    rw [hrecord ms fun _ _ => rfl, hmissing, hfield]
    simp
  · have hfound : (Json.object (Members.insert f.wire x ms)).at? [.key f.wire] = some x := by
      simp [Json.at?]
    exact hput x ▸ hfound
  · have hfield : S.checkField f (Members.insert f.wire x ms) = [] := by
      rw [checkField_eq (hget x) fun _ => hx, hx, List.map_nil]
    have hcheck : S.check (.record i) (.object (Members.insert f.wire x ms)) =
        before ++ (between ++ after) := by
      rw [hrecord _ fun key hkey => by simp [hkey.symm], missingFields_eq_nil_of_get? (hget x),
        hfield]
      simp
    exact hput x ▸ hcheck

/-- An error that can be mended inside of a value can be mended from where the descent began. -/
theorem Located.exists_mended (distinct : ∀ j, (S.table j).wires.Nodup)
    (h : S.Located kind v p kind' w) {before after : List ValidationError}
    (hinner : S.Mended kind' w e target before after) :
    ∃ before after, S.Mended kind v (e.along p) target before after := by
  obtain ⟨first, later, houter⟩ := h.exists_surrounded distinct
  refine ⟨first ++ before.map (.along p), after.map (.along p) ++ later, ?_, ?_, ?_, ?_⟩
  · exact (h.kindAt?_append distinct e.path).trans hinner.declared
  · rw [houter.split, hinner.split, List.map_append, List.map_cons]
    simp only [List.append_assoc, List.cons_append]
  · intro x
    have hput := Json.put_append h.at?_eq e.path x
    rw [ValidationError.along, hput, Json.at?_put_append h.at?_eq]
    exact hinner.found x
  · intro x hx
    have hput := Json.put_append h.at?_eq e.path x
    -- A value that is mended further down does not become `null` by that.
    have hnull : w.put e.path x = .null → S.check kind' (w.put e.path x) = [] := by
      intro hw
      have hpath : e.path = [] := Json.eq_nil_of_at?_null (hw ▸ hinner.found x)
      have htarget := hinner.declared
      rw [hpath, kindAt?_nil] at htarget
      obtain rfl := Option.some.inj htarget
      rwa [hpath, Json.put_nil]
    rw [ValidationError.along, hput, houter.replaced _ hnull, hinner.removed x hx,
      List.map_append]
    simp only [List.append_assoc]

/-- Every error of a value can be mended. -/
theorem exists_mended_of_mem_check (distinct : ∀ j, (S.table j).wires.Nodup)
    (he : e ∈ S.check kind v) :
    ∃ target before after, S.Mended kind v e target before after := by
  induction kind, v using descend generalizing e with
  | flat kind v hflat => exact ⟨kind, [], [], mended_of_flat hflat he⟩
  | array item items ih =>
    obtain ⟨n, w, hw, e, hinside, rfl⟩ := mem_check_array_iff.1 he
    obtain ⟨target, before, after, hmended⟩ := ih w (List.mem_of_getElem? hw) hinside
    exact ⟨target, (Located.item hw (.here _ _)).exists_mended distinct hmended⟩
  | record j ms ih =>
    rcases mem_check_record_iff.1 he with hmissing | ⟨f, hf, hfield⟩
    · obtain ⟨f, hf, required, absent, rfl⟩ := mem_missingFields_iff.1 hmissing
      exact ⟨f.kind, exists_mended_missing (distinct j) hf required absent⟩
    · obtain ⟨w, hw, e, hinside, rfl⟩ := mem_checkField_iff.1 hfield
      obtain ⟨target, before, after, hmended⟩ := ih f hf w hw hinside
      exact ⟨target, (Located.member hf hw (.here _ _)).exists_mended distinct hmended⟩

/-- A payload that is an object is one after a change, unless it is replaced by a value that
should be the record. -/
lemma checkRecord_put (hkind : S.kindAt? (.record i) p = some target)
    (hx : S.check target x = []) :
    S.checkRecord i ((Json.object ms).put p x) =
      S.check (.record i) ((Json.object ms).put p x) := by
  cases p with
  | nil =>
    obtain rfl := Option.some.inj ((kindAt?_nil S _).symm.trans hkind)
    obtain ⟨ns, rfl, -⟩ := exists_object_of_check hx
    rw [Json.put_nil]
    rfl
  | cons s rest =>
    cases s with
    | key name =>
      rw [Json.put]
      rfl
    | index n => cases hkind

/-- Every error of a payload that should be a record can be mended. -/
theorem exists_erased_of_mem_checkRecord (distinct : ∀ j, (S.table j).wires.Nodup)
    (he : e ∈ S.checkRecord i payload) :
    ∃ target, S.kindAt? (.record i) e.path = some target ∧
      ∃ before after, S.checkRecord i payload = before ++ e :: after ∧
        ∀ x, S.check target x = [] → (payload.put e.path x).at? e.path = some x ∧
          S.checkRecord i (payload.put e.path x) = before ++ after := by
  cases payload with
  | object ms =>
    obtain ⟨target, before, after, hmended⟩ := exists_mended_of_mem_check distinct he
    exact ⟨target, hmended.declared, before, after, hmended.split, fun x hx =>
      ⟨hmended.found x, (checkRecord_put hmended.declared hx).trans (hmended.removed x hx)⟩⟩
  | _ =>
    -- The payload itself is replaced.
    obtain rfl := List.mem_singleton.1 he
    exact ⟨.record i, kindAt?_nil S _, [], [], rfl, fun x hx =>
      ⟨rfl, checkRecord_eq_nil_iff.2 hx⟩⟩

/-- No error is reported twice. -/
lemma nodup_checkRecord (distinct : ∀ j, (S.table j).wires.Nodup) :
    (S.checkRecord i payload).Nodup :=
  (nodup_paths_checkRecord distinct).of_map ValidationError.path

end Schemas

/-- In a set whose tables list no key twice, put a value without errors in the place of one that
has an error, or in the place of a missing key: this error is erased, and nothing else changes in
what validation reports. -/
theorem validate_put {declared : List Declaration} {S : Schemas}
    (resolved : resolve declared = .ok S) (distinct : ∀ d ∈ declared, d.wires.Nodup)
    {i : Fin S.size} {payload : Json} {errors : List ValidationError}
    (validated : S.validate (S.nameOf i) payload = .ok errors) {e : ValidationError}
    (reported : e ∈ errors) :
    ∃ kind, S.kindAt? (.record i) e.path = some kind ∧
      ∀ x, S.check kind x = [] → (payload.put e.path x).at? e.path = some x ∧
        S.validate (S.nameOf i) (payload.put e.path x) = .ok (errors.erase e) := by
  obtain rfl := declarations_of_resolve resolved
  have hwires := Schemas.nodup_wires distinct
  obtain rfl := Except.ok.inj ((Schemas.validate_eq rfl payload).symm.trans validated)
  obtain ⟨kind, hkind, before, after, hsplit, hput⟩ :=
    Schemas.exists_erased_of_mem_checkRecord hwires reported
  have hnodup : (before ++ e :: after).Nodup := hsplit ▸ Schemas.nodup_checkRecord hwires
  have hother : e ∉ before := fun hbefore =>
    (List.nodup_cons.1 (List.nodup_middle.1 hnodup)).1 (List.mem_append_left after hbefore)
  have herase : (S.checkRecord i payload).erase e = before ++ after := by
    rw [hsplit, List.erase_append_right _ hother, List.erase_cons_head]
  refine ⟨kind, hkind, fun x hx => ⟨(hput x hx).1, ?_⟩⟩
  rw [Schemas.validate_eq rfl, herase, (hput x hx).2]

/-- The label that a child lacks is put in, between a child with a wrong label and an owner with a
wrong number. -/
theorem validate_put_label :
    ∃ S payload mended e errors, resolve nodesAndOwners = .ok S ∧
      payload = .object [
        ("children", .array [.object [("label", .number (.integer 3))], .object []]),
        ("owner_ref", .object [("id", .string "x")])] ∧
      e = ⟨[.key "children", .index 1, .key "label"], .missing⟩ ∧
      S.validate "Node" payload = .ok errors ∧
      errors = [⟨[.key "label"], .missing⟩,
        ⟨[.key "children", .index 0, .key "label"], .invalidType "string" "number"⟩, e,
        ⟨[.key "owner_ref", .key "id"], .invalidType "integer" "string"⟩] ∧
      payload.put e.path (.string "b") = mended ∧
      mended = .object [
        ("children", .array [.object [("label", .number (.integer 3))],
          .object [("label", .string "b")]]),
        ("owner_ref", .object [("id", .string "x")])] ∧
      S.validate "Node" mended = .ok (errors.erase e) ∧
      errors.erase e = [⟨[.key "label"], .missing⟩,
        ⟨[.key "children", .index 0, .key "label"], .invalidType "string" "number"⟩,
        ⟨[.key "owner_ref", .key "id"], .invalidType "integer" "string"⟩] := by
  have resolved : resolve nodesAndOwners = .ok _ := rfl
  obtain ⟨kind, hkind, hput⟩ := validate_put resolved (by decide) (i := ⟨0, by decide⟩)
    (show Schemas.validate _ _ (.object [
      ("children", .array [.object [("label", .number (.integer 3))], .object []]),
      ("owner_ref", .object [("id", .string "x")])]) = .ok _ from rfl)
    (e := ⟨[.key "children", .index 1, .key "label"], .missing⟩) (by decide)
  obtain rfl : Kind.string = kind := Option.some.inj hkind
  exact ⟨_, _, _, _, _, resolved, rfl, rfl, rfl, rfl, rfl, rfl, (hput (.string "b") rfl).2, rfl⟩

end RecordSchema
