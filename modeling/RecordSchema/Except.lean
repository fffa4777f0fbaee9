/-
# Success and failure of the parts

A computation that succeeds has parts that all succeed, and a failure of the whole is one of
some part.  The lemmas take such a computation apart: a mapped result, one step after another,
and a traversal of a list, which fails at the first element that it fails for.
-/

namespace RecordSchema

universe u v w

section Parts

variable {ε ε' : Type u} {α : Type v} {β : Type w}

theorem eq_ok_of_map {f : α → β} {x : Except ε α} {b : β} (h : x.map f = .ok b) :
    ∃ a, x = .ok a ∧ f a = b := by
  cases x with
  | error e => cases h
  | ok a => exact ⟨a, rfl, Except.ok.inj h⟩

theorem eq_ok_of_mapError {f : ε → ε'} {x : Except ε α} {a : α} (h : x.mapError f = .ok a) :
    x = .ok a := by
  cases x with
  | error e => cases h
  | ok b => exact congrArg Except.ok (Except.ok.inj h)

theorem eq_error_of_map {f : α → β} {x : Except ε α} {e : ε} (h : x.map f = .error e) :
    x = .error e := by
  cases x with
  | error e' => exact congrArg Except.error (Except.error.inj h)
  | ok a => cases h

theorem eq_error_of_mapError {f : ε → ε'} {x : Except ε α} {e : ε'} (h : x.mapError f = .error e) :
    ∃ e', x = .error e' ∧ f e' = e := by
  cases x with
  | error e' => exact ⟨e', rfl, Except.error.inj h⟩
  | ok a => cases h

end Parts

section Steps

variable {ε : Type u} {α β γ : Type v} {f : α → Except ε β}

theorem eq_ok_of_bind {x : Except ε α} {b : β} (h : x >>= f = .ok b) :
    ∃ a, x = .ok a ∧ f a = .ok b := by
  cases x with
  | error e => cases h
  | ok a => exact ⟨a, rfl, h⟩

theorem eq_error_of_bind {x : Except ε α} {e : ε} (h : x >>= f = .error e) :
    x = .error e ∨ ∃ a, x = .ok a ∧ f a = .error e := by
  cases x with
  | error e' => exact .inl (congrArg Except.error (Except.error.inj h))
  | ok a => exact .inr ⟨a, rfl, h⟩

/-! ## Traversals -/

theorem eq_ok_of_mapM_cons {x : α} {xs : List α} {ys : List β}
    (h : (x :: xs).mapM f = .ok ys) :
    ∃ y rest, f x = .ok y ∧ xs.mapM f = .ok rest ∧ y :: rest = ys := by
  rw [List.mapM_cons] at h
  obtain ⟨y, hy, hmore⟩ := eq_ok_of_bind h
  obtain ⟨rest, hrest, hdone⟩ := eq_ok_of_bind hmore
  exact ⟨y, rest, hy, hrest, Except.ok.inj hdone⟩

/-- What is kept by every step of a traversal is kept by all of them together. -/
theorem map_eq_map_of_mapM {g : β → γ} {k : α → γ} (hkept : ∀ x y, f x = .ok y → g y = k x)
    {xs : List α} {ys : List β} (h : xs.mapM f = .ok ys) : ys.map g = xs.map k := by
  induction xs generalizing ys with
  | nil =>
    obtain rfl := Except.ok.inj h
    rfl
  | cons x rest ih =>
    obtain ⟨y, more, hy, hmore, rfl⟩ := eq_ok_of_mapM_cons h
    rw [List.map_cons, List.map_cons, hkept x y hy, ih hmore]

/-- A traversal succeeds if it succeeds for every element. -/
theorem exists_mapM_eq_ok_iff {xs : List α} :
    (∃ ys, xs.mapM f = .ok ys) ↔ ∀ x ∈ xs, ∃ y, f x = .ok y := by
  induction xs with
  | nil => exact ⟨fun _ x hx => absurd hx List.not_mem_nil, fun _ => ⟨[], rfl⟩⟩
  | cons x rest ih =>
    rw [List.forall_mem_cons, ← ih]
    constructor
    · rintro ⟨ys, hys⟩
      obtain ⟨y, more, hy, hmore, -⟩ := eq_ok_of_mapM_cons hys
      exact ⟨⟨y, hy⟩, more, hmore⟩
    · rintro ⟨⟨y, hy⟩, more, hmore⟩
      rw [List.mapM_cons, hy, hmore]
      exact ⟨y :: more, rfl⟩

/-- A traversal that succeeds as a function says gives the values of that function. -/
theorem mapM_eq_ok_map {g : α → β} {xs : List α} (h : ∀ x ∈ xs, f x = .ok (g x)) :
    xs.mapM f = .ok (xs.map g) := by
  induction xs with
  | nil => rfl
  | cons x rest ih =>
    obtain ⟨hx, hrest⟩ := List.forall_mem_cons.1 h
    rw [List.mapM_cons, hx, ih hrest]
    rfl

/-- The first element of a list that has a property. -/
def First (P : α → Prop) (xs : List α) (x : α) : Prop :=
  P x ∧ ∃ before after, xs = before ++ x :: after ∧ ∀ y ∈ before, ¬ P y

namespace First

variable {P Q : α → Prop} {x y : α} {xs : List α}

theorem mem (h : First P xs x) : x ∈ xs := by
  obtain ⟨-, before, after, rfl, -⟩ := h
  exact List.mem_append_right _ List.mem_cons_self

theorem congr (hPQ : ∀ y ∈ xs, P y ↔ Q y) (h : First P xs x) : First Q xs x := by
  obtain ⟨hx, before, after, rfl, hbefore⟩ := h
  refine ⟨(hPQ x (List.mem_append_right _ List.mem_cons_self)).1 hx, before, after, rfl,
    fun y hy hQ => hbefore y hy ((hPQ y (List.mem_append_left _ hy)).2 hQ)⟩

theorem cons_iff : First P (x :: xs) y ↔ P x ∧ y = x ∨ ¬ P x ∧ First P xs y := by
  constructor
  · rintro ⟨hy, before, after, hsplit, hbefore⟩
    cases before with
    | nil =>
      obtain ⟨rfl, -⟩ := List.cons.inj hsplit
      exact .inl ⟨hy, rfl⟩
    | cons z before =>
      obtain ⟨rfl, rfl⟩ := List.cons.inj hsplit
      obtain ⟨hx, hbefore⟩ := List.forall_mem_cons.1 hbefore
      exact .inr ⟨hx, hy, before, after, rfl, hbefore⟩
  · rintro (⟨hx, rfl⟩ | ⟨hx, hy, before, after, rfl, hbefore⟩)
    · exact ⟨hx, [], xs, rfl, List.forall_mem_nil _⟩
    · exact ⟨hy, x :: before, after, rfl, List.forall_mem_cons.2 ⟨hx, hbefore⟩⟩

end First

/-- A traversal fails as it fails for the first element that it fails for. -/
theorem mapM_eq_error_iff {xs : List α} {e : ε} :
    xs.mapM f = .error e ↔ ∃ x, First (fun x => ∃ e, f x = .error e) xs x ∧ f x = .error e := by
  induction xs with
  | nil =>
    constructor
    · intro h
      cases h
    · rintro ⟨x, hx, -⟩
      exact absurd hx.mem List.not_mem_nil
  | cons x rest ih =>
    rw [List.mapM_cons]
    simp only [First.cons_iff]
    constructor
    · intro h
      rcases eq_error_of_bind h with hx | ⟨y, hy, hmore⟩
      · exact ⟨x, .inl ⟨⟨e, hx⟩, rfl⟩, hx⟩
      · rcases eq_error_of_bind hmore with hrest | ⟨ys, -, hdone⟩
        · obtain ⟨z, hfirst, hz⟩ := ih.1 hrest
          refine ⟨z, .inr ⟨?_, hfirst⟩, hz⟩
          rintro ⟨e', he'⟩
          rw [hy] at he'
          cases he'
        · cases hdone
    · rintro ⟨z, ⟨-, rfl⟩ | ⟨hx, hfirst⟩, hz⟩
      · rw [hz]
        rfl
      · rw [ih.2 ⟨z, hfirst, hz⟩]
        cases hok : f x with
        | error e' => exact absurd ⟨e', hok⟩ hx
        | ok y => rfl

end Steps

end RecordSchema
