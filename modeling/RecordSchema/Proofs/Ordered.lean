/-
# Payloads in order

The members of an object are kept in ascending order of their keys, so that no key occurs
twice.  `Json.Ordered` says so of an object and of every object inside of it.  All values that
are read from a text are in order (`Json.ordered_of_parse?`): the reader puts members in one
after the other, whatever their order in the text.

Wherever the descent along the tables meets a record in such a payload, its members are in
order (`Json.Ordered.eachRecord_regular`).
-/
import RecordSchema.Json.Parser
import RecordSchema.Proofs.NormalForm

namespace RecordSchema

/-! ## Values in order -/

/-- The members of all objects inside a value are in ascending order. -/
inductive Json.Ordered : Json → Prop
  | null : Ordered .null
  | boolean (b : Bool) : Ordered (.boolean b)
  | number (n : Number) : Ordered (.number n)
  | string (s : String) : Ordered (.string s)
  | array {items : List Json} (inside : ∀ v ∈ items, Ordered v) : Ordered (.array items)
  | object {ms : Members} (ascending : ms.Ascending) (inside : ∀ m ∈ ms, Ordered m.2) :
      Ordered (.object ms)

namespace Json.Ordered

variable {v w : Json} {ms : Members}

lemma ascending (h : (Json.object ms).Ordered) : ms.Ascending := by
  cases h with
  | object ascending inside => exact ascending

lemma empty : (Json.object []).Ordered := .object Members.ascending_nil (List.forall_mem_nil _)

lemma insert {key : String} (h : (Json.object ms).Ordered) (hv : v.Ordered) :
    (Json.object (Members.insert key v ms)).Ordered := by
  cases h with
  | object ascending inside =>
    refine .object (Members.ascending_insert key v ascending) fun m hm => ?_
    rcases Members.mem_insert hm with rfl | hm
    · exact hv
    · exact inside m hm

/-- What a path leads to is in order if the payload is. -/
lemma at? (h : v.Ordered) {p : Path} (hp : v.at? p = some w) : w.Ordered := by
  induction p, v, hp using Json.follow with
  | here => exact h
  | key name ms u p found inside hp ih =>
    cases h with
    | object ascending ordered => exact ih (ordered _ (Members.mem_of_get? found))
  | index n items u p found inside hp ih =>
    cases h with
    | array ordered => exact ih (ordered u (List.mem_of_getElem? found))

/-- The descent along tables without repeated keys meets records in order. -/
theorem eachRecord_regular {S : Schemas} (h : v.Ordered) (distinct : ∀ i, (S.table i).wires.Nodup)
    (kind : Kind (Fin S.size)) : S.EachRecord S.Regular kind v :=
  fun _ i _ hlocated => ⟨distinct i, (h.at? hlocated.at?_eq).ascending⟩

end Json.Ordered

/-! ## Deciding the order -/

namespace Json

mutual

/-- Whether the members of all objects inside a value are in ascending order. -/
def isOrdered : Json → Bool
  | .array items => itemsOrdered items
  | .object ms => decide (Members.Ascending ms) && membersOrdered ms
  | _ => true

/-- Whether all items of an array are in order. -/
def itemsOrdered : List Json → Bool
  | [] => true
  | v :: rest => isOrdered v && itemsOrdered rest

/-- Whether the values of all members of an object are in order. -/
def membersOrdered : List (String × Json) → Bool
  | [] => true
  | (_, v) :: rest => isOrdered v && membersOrdered rest

end

mutual

theorem isOrdered_iff : ∀ v : Json, isOrdered v = true ↔ v.Ordered
  | .null => by simp [isOrdered, Ordered.null]
  | .boolean b => by simp [isOrdered, Ordered.boolean]
  | .number n => by simp [isOrdered, Ordered.number]
  | .string s => by simp [isOrdered, Ordered.string]
  | .array items => by
    rw [isOrdered, itemsOrdered_iff items]
    exact ⟨.array, fun h => by cases h; assumption⟩
  | .object ms => by
    rw [isOrdered, Bool.and_eq_true, decide_eq_true_iff, membersOrdered_iff ms]
    exact ⟨fun h => .object h.1 h.2, fun h => by cases h; exact ⟨‹_›, ‹_›⟩⟩

theorem itemsOrdered_iff : ∀ items : List Json, itemsOrdered items = true ↔ ∀ v ∈ items, v.Ordered
  | [] => by simp [itemsOrdered]
  | v :: rest => by
    rw [itemsOrdered, Bool.and_eq_true, isOrdered_iff v, itemsOrdered_iff rest,
      List.forall_mem_cons]

theorem membersOrdered_iff :
    ∀ ms : List (String × Json), membersOrdered ms = true ↔ ∀ m ∈ ms, m.2.Ordered
  | [] => by simp [membersOrdered]
  | (_, v) :: rest => by
    rw [membersOrdered, Bool.and_eq_true, isOrdered_iff v, membersOrdered_iff rest,
      List.forall_mem_cons]

end

instance (v : Json) : Decidable v.Ordered := decidable_of_iff _ (isOrdered_iff v)

end Json

/-! ## Values that are read from a text -/

/-- What each step of a run preserves, the whole run preserves. -/
lemma holds_of_foldlM {σ τ : Type} {f : σ → τ → Option σ} {P : σ → Prop} {xs : List τ}
    (hstep : ∀ s, ∀ t ∈ xs, ∀ s', P s → f s t = some s' → P s') {s s' : σ} (hs : P s)
    (h : xs.foldlM f s = some s') : P s' := by
  induction xs generalizing s with
  | nil =>
    obtain rfl := Option.some.inj h
    exact hs
  | cons t rest ih =>
    rw [List.foldlM_cons] at h
    obtain ⟨s₁, hs₁, hrest⟩ := Option.bind_eq_some_iff.1 h
    exact ih (fun s u hu => hstep s u (List.mem_cons_of_mem _ hu))
      (hstep s t List.mem_cons_self s₁ hs hs₁) hrest

/-- The value of a scalar token is in order. -/
def Token.Ordered : Token → Prop
  | .scalar v => v.Ordered
  | _ => True

namespace Token

variable {done done' : List Token} {begun begun' : Partial} {c : Char}

lemma ordered_word? {read : List Char} {v : Json} (h : word? read = some v) : v.Ordered := by
  unfold word? at h
  split at h
  · exact Option.some.inj h ▸ .null
  · exact Option.some.inj h ▸ .boolean true
  · exact Option.some.inj h ▸ .boolean false
  · cases h

lemma ordered_complete? (hdone : ∀ t ∈ done, t.Ordered) (h : complete? done begun = some done') :
    ∀ t ∈ done', t.Ordered := by
  unfold complete? at h
  split at h
  · obtain rfl := Option.some.inj h
    exact hdone
  · obtain ⟨v, hv, rfl⟩ := Option.map_eq_some_iff.1 h
    exact List.forall_mem_cons.2 ⟨ordered_word? hv, hdone⟩
  · obtain ⟨n, -, h⟩ := Option.bind_eq_some_iff.1 h
    obtain ⟨value, -, h⟩ := Option.bind_eq_some_iff.1 h
    obtain rfl := Option.some.inj h
    exact List.forall_mem_cons.2 ⟨.number value, hdone⟩
  · cases h

lemma ordered_begin? (hdone : ∀ t ∈ done, t.Ordered) (h : begin? done c = some (done', begun)) :
    ∀ t ∈ done', t.Ordered := by
  unfold begin? at h
  repeat' split at h
  all_goals
    simp only [Option.some.injEq, Prod.mk.injEq, reduceCtorEq] at h
  all_goals
    obtain ⟨rfl, -⟩ := h
    simpa [Token.Ordered] using hdone

/-- A character that does not go on with a token completes it and begins the next one. -/
lemma ordered_restart (hdone : ∀ t ∈ done, t.Ordered)
    (h : ((complete? done begun).bind fun done => begin? done c) = some (done', begun')) :
    ∀ t ∈ done', t.Ordered := by
  obtain ⟨done₁, hcomplete, hbegin⟩ := Option.bind_eq_some_iff.1 h
  exact ordered_begin? (ordered_complete? hdone hcomplete) hbegin

lemma ordered_of_same (hdone : ∀ t ∈ done, t.Ordered)
    (h : some (done, begun) = some (done', begun')) : ∀ t ∈ done', t.Ordered :=
  (Prod.mk.inj (Option.some.inj h)).1 ▸ hdone

lemma ordered_next? (hdone : ∀ t ∈ done, t.Ordered)
    (h : next? done begun c = some (done', begun')) : ∀ t ∈ done', t.Ordered := by
  -- Where a token ends, it is put in front of the others; elsewhere they stay as they are.
  cases begun with
  | nothing => exact ordered_begin? hdone h
  | word read =>
    rw [next?] at h
    split at h
    · exact ordered_of_same hdone h
    · exact ordered_restart hdone h
  | numeral read =>
    rw [next?] at h
    split at h
    · exact ordered_of_same hdone h
    · exact ordered_restart hdone h
  | text read =>
    rw [next?] at h
    split at h
    · rw [← (Prod.mk.inj (Option.some.inj h)).1]
      exact List.forall_mem_cons.2 ⟨.string _, hdone⟩
    · repeat' split at h
      · exact ordered_of_same hdone h
      · cases h
      · exact ordered_of_same hdone h
  | pair read high =>
    rw [next?] at h
    split at h
    · exact ordered_of_same hdone h
    · cases h
  | escape read high =>
    rw [next?] at h
    repeat' split at h
    · exact ordered_of_same hdone h
    · cases h
    · obtain ⟨character, -, h⟩ := Option.map_eq_some_iff.1 h
      exact (Prod.mk.inj h).1 ▸ hdone
  | unit read high count value =>
    rw [next?] at h
    obtain ⟨digit, -, h⟩ := Option.bind_eq_some_iff.1 h
    split at h
    · obtain ⟨begun₁, -, h⟩ := Option.bind_eq_some_iff.1 h
      exact ordered_of_same hdone h
    · exact ordered_of_same hdone h

theorem ordered_scan? {text : String} {tokens : List Token} (h : scan? text = some tokens) :
    ∀ t ∈ tokens, t.Ordered := by
  obtain ⟨⟨done, begun⟩, hrun, hcomplete⟩ := Option.bind_eq_some_iff.1 h
  obtain ⟨done', hdone', rfl⟩ := Option.map_eq_some_iff.1 hcomplete
  have hdone : ∀ t ∈ done, t.Ordered :=
    holds_of_foldlM (P := fun state => ∀ t ∈ state.1, Token.Ordered t)
      (fun s c _ s' hs hnext => ordered_next? hs hnext) (by simp) hrun
  intro t ht
  exact ordered_complete? hdone hdone' t (List.mem_reverse.1 ht)

end Token

namespace Parser

/-- What a frame has collected is in order. -/
def Frame.Ordered : Frame → Prop
  | .item done => ∀ v ∈ done, v.Ordered
  | .member done _ => (Json.object done).Ordered

/-- What has been read is in order. -/
def Stage.Ordered : Stage → Prop
  | .value outer | .arrayStart outer | .objectStart outer => ∀ f ∈ outer, f.Ordered
  | .key done outer | .colon done _ outer | .afterMember done outer =>
    (Json.object done).Ordered ∧ ∀ f ∈ outer, f.Ordered
  | .afterItem done outer => (∀ v ∈ done, v.Ordered) ∧ ∀ f ∈ outer, f.Ordered
  | .finished v => v.Ordered

variable {outer : List Frame} {v : Json} {s s' : Stage} {t : Token}

lemma ordered_place (hv : v.Ordered) (houter : ∀ f ∈ outer, f.Ordered) :
    (place v outer).Ordered := by
  cases outer with
  | nil => exact hv
  | cons f rest =>
    obtain ⟨hf, hrest⟩ := List.forall_mem_cons.1 houter
    cases f with
    | item done => exact ⟨List.forall_mem_cons.2 ⟨hv, hf⟩, hrest⟩
    | member done key => exact ⟨Json.Ordered.insert hf hv, hrest⟩

lemma ordered_startValue? (houter : ∀ f ∈ outer, f.Ordered) (ht : t.Ordered)
    (h : startValue? outer t = some s) : s.Ordered := by
  unfold startValue? at h
  split at h
  · obtain rfl := Option.some.inj h
    exact ordered_place ht houter
  · split at h
    · obtain rfl := Option.some.inj h
      exact houter
    · cases h
  · split at h
    · obtain rfl := Option.some.inj h
      exact houter
    · cases h
  · cases h

lemma ordered_step? (hs : s.Ordered) (ht : t.Ordered) (h : step? s t = some s') : s'.Ordered := by
  unfold step? at h
  split at h
  · exact ordered_startValue? hs ht h
  · exact Option.some.inj h ▸ ordered_place (.array (List.forall_mem_nil _)) hs
  · refine ordered_startValue? (List.forall_mem_cons.2 ⟨?_, hs⟩) ht h
    exact fun v hv => absurd hv List.not_mem_nil
  · exact Option.some.inj h ▸ ordered_place .empty hs
  · exact Option.some.inj h ▸ ⟨.empty, hs⟩
  · exact Option.some.inj h ▸ hs
  · exact Option.some.inj h ▸ List.forall_mem_cons.2 hs
  · exact Option.some.inj h ▸ List.forall_mem_cons.2 hs
  · refine Option.some.inj h ▸ ordered_place (.array fun v hv => ?_) hs.2
    exact hs.1 v (List.mem_reverse.1 hv)
  · exact Option.some.inj h ▸ hs
  · exact Option.some.inj h ▸ ordered_place hs.1 hs.2
  · cases h

end Parser

/-- A value that is read from a text is in order. -/
theorem Json.ordered_of_parse? {text : String} {v : Json} (h : Json.parse? text = some v) :
    v.Ordered := by
  obtain ⟨tokens, htokens, h⟩ := Option.bind_eq_some_iff.1 h
  obtain ⟨s, hrun, h⟩ := Option.bind_eq_some_iff.1 h
  have hstart : Parser.Stage.Ordered (.value []) := fun f hf => absurd hf List.not_mem_nil
  have hs : s.Ordered := holds_of_foldlM
    (fun s t ht s' hs hstep => Parser.ordered_step? hs (Token.ordered_scan? htokens t ht) hstep)
    hstart hrun
  split at h
  · obtain rfl := Option.some.inj h
    exact hs
  · cases h

end RecordSchema
