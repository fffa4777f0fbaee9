/-
# The members of a JSON object

Looking a member up, putting one in and taking one out.  Keys are compared by their code
points; `insert` puts a member at its place in that order and replaces the value of a key
that is already there.  `get?_insert` and `get?_erase` say what the two operations do to
every look-up, and `ascending_insert` and `ascending_erase` that they keep the order.
-/
import RecordSchema.Json

namespace RecordSchema

namespace Members

/-- The value of the first member with the given key. -/
def get? (key : String) : List (String × Json) → Option Json
  | [] => none
  | (k, v) :: rest => if k = key then some v else get? key rest

/-- Whether some member has the given key. -/
def contains (key : String) (ms : Members) : Bool := (get? key ms).isSome

/-- The keys, in order. -/
def keys (ms : Members) : List String := ms.map Prod.fst

/-- The members with one more put in at its place, or with the value of its key replaced. -/
def insert (key : String) (value : Json) : List (String × Json) → Members
  | [] => [(key, value)]
  | (k, v) :: rest =>
    if key < k then (key, value) :: (k, v) :: rest
    else if k = key then (key, value) :: rest
    else (k, v) :: insert key value rest

/-- The members without those of the given key. -/
def erase (key : String) (ms : Members) : Members := ms.filter fun m => m.1 ≠ key

/-- The members listed, put in one after the other: the last one of a key counts. -/
def ofList (ms : List (String × Json)) : Members :=
  ms.foldl (fun done m => insert m.1 m.2 done) []

/-- Members are ascending when each key comes before all later ones. -/
def Ascending (ms : Members) : Prop := ms.Pairwise fun a b => a.1 < b.1

instance (ms : Members) : Decidable (Ascending ms) :=
  inferInstanceAs (Decidable (List.Pairwise _ ms))

@[simp] theorem get?_nil (key : String) : get? key [] = none := rfl

theorem get?_cons (key k : String) (v : Json) (rest : Members) :
    get? key ((k, v) :: rest) = if k = key then some v else get? key rest := rfl

/-- What goes through the members up to a key depends on the value of the key alone. -/
theorem eq_match_get? {β : Type} {go : Members → β} {key : String} {found : Json → β} {absent : β}
    (nil : go [] = absent)
    (cons : ∀ k v rest, go ((k, v) :: rest) = if k = key then found v else go rest)
    (ms : Members) :
    go ms = match get? key ms with
      | some v => found v
      | none => absent := by
  induction ms with
  | nil => exact nil
  | cons m rest ih =>
    rw [cons, get?_cons]
    split
    · rfl
    · exact ih

@[simp] theorem get?_insert (key key' : String) (value : Json) (ms : Members) :
    get? key' (insert key value ms) = if key = key' then some value else get? key' ms := by
  induction ms with
  | nil => rfl
  | cons m rest ih =>
    obtain ⟨k, v⟩ := m
    rw [insert]
    split
    · rfl
    · split
      · rename_i h
        subst h
        by_cases h' : k = key' <;> simp [get?, h']
      · rename_i h
        by_cases h' : k = key'
        · subst h'
          simp [get?, Ne.symm h]
        · simp [get?, h', ih]

@[simp] theorem get?_erase (key key' : String) (ms : Members) :
    get? key' (erase key ms) = if key = key' then none else get? key' ms := by
  induction ms with
  | nil => simp [erase]
  | cons m rest ih =>
    obtain ⟨k, v⟩ := m
    simp only [erase] at ih
    by_cases h : k = key
    · subst h
      by_cases h' : k = key' <;> simp_all [erase, get?]
    · by_cases h' : k = key'
      · subst h'
        simp [erase, get?, h, Ne.symm h]
      · simpa [erase, get?, h, h'] using ih

theorem mem_keys_iff {key : String} {ms : Members} :
    key ∈ keys ms ↔ ∃ v, get? key ms = some v := by
  induction ms with
  | nil => simp [keys]
  | cons m rest ih =>
    obtain ⟨k, v⟩ := m
    simp only [keys] at ih
    by_cases h : k = key
    · simp [keys, get?, h]
    · simp [keys, get?, h, ih, Ne.symm h]

theorem mem_of_get? {key : String} {value : Json} {ms : Members}
    (h : get? key ms = some value) : (key, value) ∈ ms := by
  induction ms with
  | nil => simp at h
  | cons m rest ih =>
    obtain ⟨k, v⟩ := m
    rw [get?_cons] at h
    split at h
    · rename_i hk
      simp_all
    · exact List.mem_cons_of_mem _ (ih h)

theorem mem_insert {key : String} {value : Json} {ms : Members} {m : String × Json}
    (h : m ∈ insert key value ms) : m = (key, value) ∨ m ∈ ms := by
  induction ms with
  | nil => simpa [insert] using h
  | cons n rest ih =>
    obtain ⟨k, v⟩ := n
    rw [insert] at h
    split at h
    · simpa using h
    · split at h
      · rcases List.mem_cons.1 h with h | h
        · exact .inl h
        · exact .inr (List.mem_cons_of_mem _ h)
      · rcases List.mem_cons.1 h with h | h
        · exact .inr (h ▸ List.mem_cons_self)
        · exact (ih h).imp id (List.mem_cons_of_mem _)

theorem ascending_nil : Ascending [] := List.Pairwise.nil

theorem ascending_insert (key : String) (value : Json) {ms : Members} (h : Ascending ms) :
    Ascending (insert key value ms) := by
  induction ms with
  | nil => simp [insert, Ascending]
  | cons m rest ih =>
    obtain ⟨k, v⟩ := m
    have ⟨first, later⟩ := List.pairwise_cons.1 h
    rw [insert]
    split
    · rename_i below
      refine List.pairwise_cons.2 ⟨fun m hm => ?_, h⟩
      rcases List.mem_cons.1 hm with rfl | hm
      · exact below
      · exact String.lt_trans below (first m hm)
    · split
      · rename_i same
        subst same
        exact List.pairwise_cons.2 ⟨first, later⟩
      · rename_i notBelow differs
        refine List.pairwise_cons.2 ⟨fun m hm => ?_, ih later⟩
        rcases mem_insert hm with rfl | hm
        · rcases Classical.em (k < key) with above | notAbove
          · exact above
          · exact absurd (String.le_antisymm (String.not_lt.1 notBelow) (String.not_lt.1 notAbove))
              differs
        · exact first m hm

theorem ascending_erase (key : String) {ms : Members} (h : Ascending ms) :
    Ascending (erase key ms) :=
  List.Pairwise.filter _ h

theorem ascending_ofList (ms : List (String × Json)) : Ascending (ofList ms) := by
  suffices ∀ done, Ascending done →
      Ascending (ms.foldl (fun done m => insert m.1 m.2 done) done) from this [] ascending_nil
  induction ms with
  | nil => exact fun _ h => h
  | cons m rest ih => exact fun done h => ih _ (ascending_insert m.1 m.2 h)

end Members

end RecordSchema
