/-
# Codecs that fit a kind

A codec fits a kind of a set of records if it reads and writes values of that kind: a text
fits a string, a list an array if its items fit, and a record the record of the set whose
table its layout fits.  `Codec.Fits` holds this for one codec and all the codecs that it is
made of, so that what reading and writing have to do with validation can be proved along it.

The first consequences are that what is written is read back (`Fits.read_write`) and conforms
to the kind (`Fits.check_write`), and that reading takes no notice of transparent changes
(`Fits.read_change`).
-/
import RecordSchema.Proofs.Encoding
import RecordSchema.Proofs.FieldGroups

namespace RecordSchema

namespace Codec

/-! ## Items -/

section Items

variable {α : Type} {read : Json → Except DecodeError α} {write : α → Json}

lemma readItems_map_write {xs : List α} (h : ∀ a ∈ xs, read (write a) = .ok a) (index : Nat) :
    readItems read index (xs.map write) = .ok xs := by
  induction xs generalizing index with
  | nil => rfl
  | cons a rest ih =>
    rw [List.map_cons, readItems, h a List.mem_cons_self]
    dsimp only
    rw [ih (fun b hb => h b (List.mem_cons_of_mem _ hb))]
    rfl

lemma readItems_map_congr {change : Json → Json} {items : List Json}
    (h : ∀ v ∈ items, read (change v) = read v) (index : Nat) :
    readItems read index (items.map change) = readItems read index items := by
  induction items generalizing index with
  | nil => rfl
  | cons v rest ih =>
    rw [List.map_cons, readItems, readItems, h v List.mem_cons_self,
      ih fun w hw => h w (List.mem_cons_of_mem _ hw)]

/-- If an array is read, its items are, one by one. -/
lemma forall₂_of_readItems {index : Nat} {items : List Json} {xs : List α}
    (h : readItems read index items = .ok xs) :
    List.Forall₂ (fun v a => read v = .ok a) items xs := by
  induction items generalizing index xs with
  | nil =>
    obtain rfl := Except.ok.inj h
    exact .nil
  | cons v rest ih =>
    rw [readItems] at h
    cases hv : read v with
    | error e =>
      rw [hv] at h
      cases h
    | ok a =>
      rw [hv] at h
      obtain ⟨as, has, rfl⟩ := eq_ok_of_map h
      exact .cons hv (ih has)

lemma exists_read_of_mem {index : Nat} {items : List Json} {xs : List α}
    (h : readItems read index items = .ok xs) {v : Json} (hv : v ∈ items) :
    ∃ a, read v = .ok a := by
  replace h := forall₂_of_readItems h
  induction h with
  | nil => exact absurd hv List.not_mem_nil
  | @cons w a rest as hw _ ih =>
    rcases List.mem_cons.1 hv with rfl | hv
    · exact ⟨a, hw⟩
    · exact ih hv

/-- If each item is written in some form, so is the array that they are read from. -/
lemma map_write_of_readItems {change : Json → Json} {index : Nat} {items : List Json}
    {xs : List α} (h : readItems read index items = .ok xs)
    (hwrite : ∀ v ∈ items, ∀ a, read v = .ok a → write a = change v) :
    xs.map write = items.map change := by
  replace h := forall₂_of_readItems h
  induction h with
  | nil => rfl
  | @cons v a rest as hv _ ih =>
    rw [List.map_cons, List.map_cons, hwrite v List.mem_cons_self a hv,
      ih fun w hw => hwrite w (List.mem_cons_of_mem _ hw)]

/-- If an array cannot be read, this is because of its first item that cannot. -/
lemma exists_of_readItems_error {index : Nat} {items : List Json} {e : DecodeError}
    (h : readItems read index items = .error e) :
    ∃ n v e', items[n]? = some v ∧ read v = .error e' ∧ e = e'.under (.index (index + n)) ∧
      ∀ m < n, ∀ w, items[m]? = some w → ∃ a, read w = .ok a := by
  induction items generalizing index with
  | nil => cases h
  | cons v rest ih =>
    rw [readItems] at h
    cases hv : read v with
    | error e' =>
      rw [hv] at h
      have he : e = e'.under (.index index) := (Except.error.inj h).symm
      exact ⟨0, v, e', rfl, hv, he, fun m hm => absurd hm (Nat.not_lt_zero m)⟩
    | ok a =>
      rw [hv] at h
      obtain ⟨n, w, e', hw, he', rfl, hbefore⟩ := ih (eq_error_of_map h)
      refine ⟨n + 1, w, e', hw, he', by rw [Nat.add_right_comm, Nat.add_assoc], ?_⟩
      intro m hm u hu
      cases m with
      | zero =>
        obtain rfl := Option.some.inj hu
        exact ⟨a, hv⟩
      | succ m => exact hbefore m (Nat.lt_of_succ_lt_succ hm) u hu

end Items

/-! ## Words and literals -/

/-- An integer that is read is the one that is written again. -/
lemma eq_toNat_of_readWord {n : Int} {w : UInt16} (h : readWord (.number (.integer n)) = .ok w) :
    n = w.toNat := by
  rw [readWord] at h
  split at h
  · rename_i hrange
    obtain rfl := Except.ok.inj h
    rw [UInt16.toNat_ofNat']
    omega
  · cases h

lemma Literals.literal_of_lookup {α : Type} {ls : Literals α} {s : String} {a : α}
    (h : ls.lookup s = .ok a) : ls.literal a = s := by
  rw [lookup] at h
  split at h
  · rename_i b hfind
    obtain rfl := Except.ok.inj h
    simpa using List.find?_some hfind
  · cases h

/-! ## Fitting codecs -/

/-- A codec reads and writes values of a kind. -/
inductive Fits (S : Schemas) : {α : Type} → Kind (Fin S.size) → Codec α → Prop
  | text : Fits S .string text
  | flag : Fits S .boolean flag
  | word : Fits S .integer word
  | document : Fits S .object document
  | list {α : Type} {kind : Kind (Fin S.size)} {c : Codec α} (item : Fits S kind c) :
      Fits S (.array kind) (list c)
  | literals {α : Type} {ls : Literals α} (found : ∀ a, ls.find? (ls.literal a) = some a) :
      Fits S (.oneOf ls.all) ls.codec
  /-- A record fits if its layout fits the table, and a record and its parts are two ways to
  give the same data. -/
  | record {α τ : Type} {i : Fin S.size} {layout : Layout α} {build : τ → α} {parts : α → τ}
      {value : (β : Type) → Kind (Fin S.size) → Codec β → Prop}
      (distinct : (S.table i).wires.Nodup)
      (fields : layout.fields.Fits value (S.table i).fields build parts)
      (values : ∀ {β : Type} {kind : Kind (Fin S.size)} {c : Codec β},
        value β kind c → Fits S kind c)
      (build_parts : ∀ r, build (parts r) = r) (parts_build : ∀ p, parts (build p) = p) :
      Fits S (.record i) layout.codec

namespace Fits

variable {S : Schemas} {α : Type} {kind : Kind (Fin S.size)} {c : Codec α}

lemma write_ne_null (h : Fits S kind c) (a : α) : c.write a ≠ .null := by
  cases h <;> (intro hnull; cases hnull)

/-- What is written is read back. -/
theorem read_write (h : Fits S kind c) : ∀ a, c.read (c.write a) = .ok a := by
  induction h with
  | text => exact fun _ => rfl
  | flag => exact fun _ => rfl
  | word =>
    intro w
    have hlt : w.toNat < 2 ^ 16 := w.toNat_lt
    have hrange : (0 : Int) ≤ w.toNat ∧ (w.toNat : Int) < 65536 := by omega
    simp only [Codec.word, readWord]
    rw [if_pos hrange, Int.toNat_natCast, UInt16.ofNat_toNat]
  | document => exact fun _ => rfl
  | list item ih => exact fun xs => readItems_map_write (fun a _ => ih a) 0
  | @literals α ls found =>
    intro a
    show ls.lookup (ls.literal a) = .ok a
    rw [Literals.lookup, found a]
  | @record α τ i layout build parts value distinct fields values build_parts parts_build ih =>
    intro r
    -- Sorting what was written does not change what stands under a key.
    have hnd := (fields.keys_write_sublist r).nodup distinct
    have hread := fields.ofMembers_of_write distinct
      (fun β kind c hc b => ⟨ih hc b, (values hc).write_ne_null b⟩) r
      fun f _ => Members.get?_ofList hnd f.wire
    show (layout.fields.ofMembers (Members.ofList (layout.fields.write r))).mapError _ = .ok r
    rw [hread, build_parts]
    rfl

/-- What is written conforms to the kind. -/
theorem check_write (h : Fits S kind c) : ∀ a, S.check kind (c.write a) = [] := by
  induction h with
  | text => exact fun s => Schemas.check_string_eq_nil_iff.2 ⟨s, rfl⟩
  | flag => exact fun b => Schemas.check_boolean_eq_nil_iff.2 ⟨b, rfl⟩
  | word => exact fun w => Schemas.check_integer_eq_nil_iff.2 ⟨w.toNat, rfl⟩
  | document => exact fun ms => Schemas.check_object_eq_nil_iff.2 ⟨ms, rfl⟩
  | @list α kind c item ih =>
    intro xs
    refine Schemas.check_array_eq_nil_iff.2 fun v hv => ?_
    obtain ⟨a, -, rfl⟩ := List.mem_map.1 hv
    exact ih a
  | @literals α ls found =>
    intro a
    have hmem : a ∈ ls.values := List.mem_of_find?_eq_some (found a)
    exact Schemas.check_oneOf_eq_nil_iff.2 ⟨ls.literal a, List.mem_map.2 ⟨a, hmem, rfl⟩, rfl⟩
  | @record α τ i layout build parts value distinct fields values build_parts parts_build ih =>
    intro r
    have hget := Members.get?_ofList ((fields.keys_write_sublist r).nodup distinct)
    refine Schemas.check_record_eq_nil_iff.2 ⟨fun f hf hrequired => ?_, fun f hf v hv => ?_⟩
    · -- Only a field that need not be there can be left out.
      rw [Members.contains, hget]
      rcases fields.get?_write distinct r f hf with ⟨β, c, b, -, hb⟩ | ⟨hoptional, -⟩
      · rw [hb]
        rfl
      · simp [hrequired] at hoptional
    · have hv' := Field.get?_of_held? hv
      rw [hget] at hv'
      rcases fields.get?_write distinct r f hf with ⟨β, c, b, hc, hb⟩ | ⟨-, hb⟩
      · rw [hv', Option.some.injEq] at hb
        rw [hb]
        exact ih hc b
      · cases hv'.symm.trans hb

/-- What is written holds for a field, if anything, a value that was written for it. -/
lemma eachRecord_write {P : Fin S.size → Members → Prop}
    (hrecord : ∀ {α τ : Type} {i : Fin S.size} {layout : Layout α} {build : τ → α}
      {parts : α → τ} {value : (β : Type) → Kind (Fin S.size) → Codec β → Prop},
      (S.table i).wires.Nodup → layout.fields.Fits value (S.table i).fields build parts →
      ∀ r, P i (Members.ofList (layout.fields.write r)))
    (h : Fits S kind c) : ∀ a, S.EachRecord P kind (c.write a) := by
  induction h with
  | text => exact fun _ => Schemas.eachRecord_of_flat rfl
  | flag => exact fun _ => Schemas.eachRecord_of_flat rfl
  | word => exact fun _ => Schemas.eachRecord_of_flat rfl
  | document => exact fun _ => Schemas.eachRecord_of_flat rfl
  | @list α kind c item ih =>
    intro xs
    refine Schemas.eachRecord_array_iff.2 fun v hv => ?_
    obtain ⟨a, -, rfl⟩ := List.mem_map.1 hv
    exact ih a
  | literals found => exact fun _ => Schemas.eachRecord_of_flat rfl
  | @record α τ i layout build parts value distinct fields values build_parts parts_build ih =>
    intro r
    refine Schemas.eachRecord_record_iff.2 ⟨hrecord distinct fields r, fun f hf v hv => ?_⟩
    have hget := Members.get?_ofList ((fields.keys_write_sublist r).nodup distinct) f.wire
    rw [Field.get?_of_held? hv] at hget
    rcases fields.get?_write distinct r f hf with ⟨β, c, b, hc, hb⟩ | ⟨-, hb⟩
    · obtain rfl := Option.some.inj (hget.trans hb)
      exact ih hc b
    · cases hget.trans hb

theorem regular_write (h : Fits S kind c) (a : α) : S.EachRecord S.Regular kind (c.write a) :=
  h.eachRecord_write (fun distinct _ _ => ⟨distinct, Members.ascending_ofList _⟩) a

theorem known_write (h : Fits S kind c) (a : α) : S.EachRecord S.Known kind (c.write a) := by
  refine h.eachRecord_write (fun distinct fields r key hkey => ?_) a
  obtain ⟨v, hv⟩ := Members.mem_keys_iff.1 hkey
  rw [Members.get?_ofList ((fields.keys_write_sublist r).nodup distinct)] at hv
  exact (fields.keys_write_sublist r).subset (Members.mem_keys_of_get? hv)

/-- Reading takes no notice of transparent changes, whether it succeeds or not. -/
theorem read_change {change : Kind (Fin S.size) → Json → Json} (hchange : S.Transparent change)
    (h : Fits S kind c) :
    ∀ v, S.EachRecord S.Regular kind v → c.read (change kind v) = c.read v := by
  induction h with
  | text => exact fun v _ => by rw [hchange.flat .string v (by cases v <;> rfl)]
  | flag => exact fun v _ => by rw [hchange.flat .boolean v (by cases v <;> rfl)]
  | word => exact fun v _ => by rw [hchange.flat .integer v (by cases v <;> rfl)]
  | document => exact fun v _ => by rw [hchange.flat .object v (by cases v <;> rfl)]
  | @list α kind c item ih =>
    intro v hv
    cases hopens : (Kind.array kind).opens v with
    | false => rw [hchange.flat _ v hopens]
    | true =>
      cases v with
      | array items =>
        rw [Schemas.eachRecord_array_iff] at hv
        rw [hchange.array]
        exact readItems_map_congr (fun w hw => ih w (hv w hw)) 0
      | _ => cases hopens
  | literals found => exact fun v _ => by rw [hchange.flat _ v (by cases v <;> rfl)]
  | @record α τ i layout build parts value distinct fields values build_parts parts_build ih =>
    intro v hv
    cases hopens : (Kind.record i).opens v with
    | false => rw [hchange.flat _ v hopens]
    | true =>
      cases v with
      | object ms =>
        obtain ⟨hhere, hinside⟩ := Schemas.eachRecord_record_iff.1 hv
        -- Each field holds the changed value, of which its own codec takes no notice.
        obtain ⟨ns, hns, hheld⟩ := hchange.record i ms hhere
        rw [hns]
        exact congrArg (Except.mapError Shortfall.toError) (fields.ofMembers_congr hheld
          fun f hf w hw β c hc => ih hc w (hinside f hf w hw))
      | _ => cases hopens

end Fits

end Codec

end RecordSchema
