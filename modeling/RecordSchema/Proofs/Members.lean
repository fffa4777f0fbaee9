/-
# Look-ups determine members

Two lists of members in ascending order of their keys are equal as soon as every look-up
gives the same value in both (`Members.ext_get?`).  So what an operation on members does can
be said by what it does to look-ups, and `get?_ofList` and `get?_append` say it for the
operations that write a record.
-/
import RecordSchema.Json.Members
import Mathlib.Data.List.Basic

namespace RecordSchema

namespace Members

variable {key : String} {value : Json} {ms ns : Members}

@[simp] lemma keys_nil : keys [] = [] := rfl

@[simp] lemma keys_cons (m : String × Json) (ms : Members) : keys (m :: ms) = m.1 :: keys ms := rfl

@[simp] lemma keys_append (ms ns : Members) : keys (ms ++ ns) = keys ms ++ keys ns :=
  List.map_append

lemma get?_eq_none_iff : get? key ms = none ↔ key ∉ keys ms := by
  rw [mem_keys_iff, Option.eq_none_iff_forall_ne_some, not_exists]

lemma mem_keys_of_get? (h : get? key ms = some value) : key ∈ keys ms :=
  mem_keys_iff.2 ⟨value, h⟩

lemma get?_append (key : String) (ms ns : Members) :
    get? key (ms ++ ns) = (get? key ms).or (get? key ns) := by
  induction ms with
  | nil => rfl
  | cons m rest ih =>
    obtain ⟨k, v⟩ := m
    rw [List.cons_append, get?_cons, get?_cons, ih]
    split <;> rfl

lemma Ascending.nodup_keys (h : Ascending ms) : (keys ms).Nodup := by
  refine List.pairwise_map.2 (List.Pairwise.imp ?_ h)
  intro a b hab heq
  exact String.lt_irrefl _ (heq ▸ hab)

lemma Ascending.get?_head {k : String} {v : Json} (h : Ascending ((k, v) :: ms)) :
    get? k ms = none := by
  rw [get?_eq_none_iff]
  exact (List.nodup_cons.1 h.nodup_keys).1

/-- The first of ascending members has the least key. -/
lemma Ascending.head_le {k : String} {v : Json} (h : Ascending ((k, v) :: ms))
    (hkey : key ∈ keys ((k, v) :: ms)) : k ≤ key := by
  rcases List.mem_cons.1 hkey with rfl | hlater
  · exact String.le_refl _
  · obtain ⟨m, hm, rfl⟩ := List.mem_map.1 hlater
    exact String.not_lt.1 (String.lt_asymm ((List.pairwise_cons.1 h).1 m hm))

/-- The look-ups of ascending members determine the members. -/
theorem ext_get? (hms : Ascending ms) (hns : Ascending ns)
    (heq : ∀ key, get? key ms = get? key ns) : ms = ns := by
  have hkeys : ∀ key, key ∈ keys ms ↔ key ∈ keys ns := by
    intro key
    rw [mem_keys_iff, mem_keys_iff, heq key]
  induction ms generalizing ns with
  | nil => exact (List.map_eq_nil_iff.1 (List.eq_nil_iff_forall_not_mem.2
      fun key hkey => absurd ((hkeys key).2 hkey) List.not_mem_nil)).symm
  | cons m ms ih =>
    obtain ⟨k, v⟩ := m
    cases ns with
    | nil => exact absurd ((hkeys k).1 List.mem_cons_self) List.not_mem_nil
    | cons n ns =>
      obtain ⟨l, w⟩ := n
      -- Both first keys are the least of the same keys, so the two lists begin alike.
      have hkl : k = l :=
        String.le_antisymm (hms.head_le ((hkeys l).2 List.mem_cons_self))
          (hns.head_le ((hkeys k).1 List.mem_cons_self))
      subst hkl
      have hvw : v = w := by simpa [get?_cons] using heq k
      subst hvw
      have htail : ∀ key, get? key ms = get? key ns := by
        intro key
        by_cases hk : k = key
        · subst hk
          rw [hms.get?_head, hns.get?_head]
        · simpa [get?_cons, hk] using heq key
      rw [ih (List.pairwise_cons.1 hms).2 (List.pairwise_cons.1 hns).2 htail fun key => by
        rw [mem_keys_iff, mem_keys_iff, htail key]]

/-- Members put in one after the other keep their values if no key occurs twice. -/
theorem get?_ofList (hnd : (keys ms).Nodup) (key : String) :
    get? key (ofList ms) = get? key ms := by
  -- Generalised to members that are already there, as long as none of them has a key in `ms`.
  suffices ∀ done, (∀ k ∈ keys ms, k ∉ keys done) →
      get? key (ms.foldl (fun done m => insert m.1 m.2 done) done)
        = (get? key ms).or (get? key done) by
    simpa [ofList] using this [] (by simp)
  induction ms with
  | nil => simp
  | cons m rest ih =>
    intro done hfresh
    obtain ⟨k, v⟩ := m
    rw [keys_cons, List.nodup_cons] at hnd
    have hfresh' : ∀ k' ∈ keys rest, k' ∉ keys (insert k v done) := by
      intro k' hk'
      have hne : k ≠ k' := fun heq => hnd.1 (heq ▸ hk')
      rw [← get?_eq_none_iff, get?_insert, if_neg hne, get?_eq_none_iff]
      exact hfresh k' (List.mem_cons_of_mem _ hk')
    rw [List.foldl_cons, ih hnd.2 _ hfresh', get?_insert, get?_cons]
    by_cases hk : k = key
    · subst hk
      rw [get?_eq_none_iff.2 hnd.1]
      simp
    · simp [hk]

/-! ## Changing values in place -/

/-- The members with each value changed or left out, as `change` says for its key. -/
def update (change : String → Json → Option Json) (ms : Members) : Members :=
  ms.filterMap fun m => (change m.1 m.2).map (Prod.mk m.1)

variable {change : String → Json → Option Json}

lemma keys_update_sublist (change : String → Json → Option Json) (ms : Members) :
    (keys (update change ms)).Sublist (keys ms) := by
  induction ms with
  | nil => exact List.Sublist.refl _
  | cons m rest ih =>
    rw [update, List.filterMap_cons]
    cases change m.1 m.2 with
    | none => exact ih.cons _
    | some v => exact ih.cons_cons _

lemma ascending_iff_keys : Ascending ms ↔ (keys ms).Pairwise (· < ·) :=
  List.pairwise_map.symm

lemma ascending_update (h : Ascending ms) : Ascending (update change ms) :=
  ascending_iff_keys.2 ((ascending_iff_keys.1 h).sublist (keys_update_sublist change ms))

theorem get?_update (hnd : (keys ms).Nodup) (key : String) :
    get? key (update change ms) = (get? key ms).bind (change key) := by
  induction ms with
  | nil => rfl
  | cons m rest ih =>
    obtain ⟨k, v⟩ := m
    rw [keys_cons, List.nodup_cons] at hnd
    have hrest := ih hnd.2
    rw [update] at hrest ⊢
    rw [get?_cons, List.filterMap_cons]
    by_cases hk : k = key
    · subst hk
      -- If the value is left out, the key is not found later on either.
      have hnone : get? k (rest.filterMap fun m => (change m.1 m.2).map (Prod.mk m.1)) = none := by
        rw [hrest, get?_eq_none_iff.2 hnd.1]
        rfl
      cases hv : change k v with
      | none => simpa [hv] using hnone
      | some w => simp [hv, get?_cons]
    · cases change k v with
      | none => simpa [hk] using hrest
      | some w => simpa [hk, get?_cons] using hrest

end Members

end RecordSchema
