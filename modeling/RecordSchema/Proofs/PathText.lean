/-
# Paths are told apart by their texts

The text of a path is a lead, which is its first key, followed by the texts of the further
segments.  Each of these begins with a dot or with an opening bracket, so if no key has one of
the two in it, the text can be taken apart again from left to right (`Segment.text_append_inj`):
what comes before the next dot or bracket is a key, and what comes before a closing bracket is a
position.  `Path.Proper.eq_of_text_eq` puts this together.  It leaves out the paths that begin
with an empty key and the one that is the single key `<root>`, since their texts are the texts of
other paths too.

The keys in the errors of a payload are keys of the tables (`Schemas.mem_wires_of_mem_check`).
In the set of all record types none of them is of this sort, so that `text_path_unambiguous`
says of its errors too that they are told apart by their texts.
-/
import RecordSchema.Proofs.Catalogue
import RecordSchema.Proofs.Precedence

namespace RecordSchema

/-! ## Taking texts apart -/

/-- What comes before the first separator of a list is determined by the list. -/
lemma append_inj_of_separated {α : Type} {P : α → Prop} {a b x y : List α}
    (ha : ∀ c ∈ a, ¬ P c) (hb : ∀ c ∈ b, ¬ P c) (hx : ∀ c ∈ x.head?, P c)
    (hy : ∀ c ∈ y.head?, P c) (h : a ++ x = b ++ y) : a = b ∧ x = y := by
  rcases List.append_eq_append_iff.1 h with ⟨d, rfl, rfl⟩ | ⟨d, rfl, rfl⟩
  · cases d with
    | nil => simp
    | cons c d => exact absurd (hx c rfl) (hb c (by simp))
  · cases d with
    | nil => simp
    | cons c d => exact absurd (hy c rfl) (ha c (by simp))

namespace Segment

/-- A dot or an opening bracket, which begin the texts of segments. -/
def Opens (c : Char) : Prop := c = '.' ∨ c = '['

/-- A key has neither a dot nor an opening bracket in it. -/
def Clean : Segment → Prop
  | .key name => '.' ∉ name.toList ∧ '[' ∉ name.toList
  | .index _ => True

instance : (s : Segment) → Decidable s.Clean
  | .key name => inferInstanceAs (Decidable ('.' ∉ name.toList ∧ '[' ∉ name.toList))
  | .index _ => inferInstanceAs (Decidable True)

variable {s t : Segment} {x y : List Char}

lemma toList_text_key (name : String) : (key name).text.toList = '.' :: name.toList := by
  simp [text]

lemma toList_text_index (n : Nat) :
    (index n).text.toList = '[' :: (Nat.toDigits 10 n ++ [']']) := by
  simp [text]

lemma not_opens_of_clean {name : String} (h : (key name).Clean) : ∀ c ∈ name.toList, ¬ Opens c := by
  rintro c hc (rfl | rfl)
  · exact h.1 hc
  · exact h.2 hc

/-- Clean keys are determined by what begins with them, if something else opens after them. -/
lemma key_append_inj {a b : String} (ha : (key a).Clean) (hb : (key b).Clean)
    (hx : ∀ c ∈ x.head?, Opens c) (hy : ∀ c ∈ y.head?, Opens c)
    (h : a.toList ++ x = b.toList ++ y) : a = b ∧ x = y := by
  obtain ⟨hab, hxy⟩ :=
    append_inj_of_separated (not_opens_of_clean ha) (not_opens_of_clean hb) hx hy h
  exact ⟨String.toList_inj.1 hab, hxy⟩

lemma digits_append_inj {m n : Nat}
    (h : Nat.toDigits 10 m ++ ']' :: x = Nat.toDigits 10 n ++ ']' :: y) : m = n ∧ x = y := by
  have hdigit : ∀ k, ∀ c ∈ Nat.toDigits 10 k, ¬ c = ']' := by
    rintro k c hc rfl
    have := Nat.isDigit_of_mem_toDigits (by decide) (by decide) hc
    simp at this
  obtain ⟨hmn, hxy⟩ := append_inj_of_separated (P := (· = ']')) (hdigit m) (hdigit n)
    (by simp) (by simp) h
  refine ⟨?_, List.tail_eq_of_cons_eq hxy⟩
  calc m = Nat.ofDigitChars 10 (Nat.toDigits 10 m) 0 := Nat.ofDigitChars_ten_toDigits.symm
    _ = Nat.ofDigitChars 10 (Nat.toDigits 10 n) 0 := by rw [hmn]
    _ = n := Nat.ofDigitChars_ten_toDigits

/-- A segment is determined by what begins with its text, if something else opens after it. -/
lemma text_append_inj (hs : s.Clean) (ht : t.Clean) (hx : ∀ c ∈ x.head?, Opens c)
    (hy : ∀ c ∈ y.head?, Opens c) (h : s.text.toList ++ x = t.text.toList ++ y) :
    s = t ∧ x = y := by
  cases s with
  | key a =>
    cases t with
    | key b =>
      rw [toList_text_key, toList_text_key] at h
      obtain ⟨rfl, hxy⟩ := key_append_inj hs ht hx hy (List.tail_eq_of_cons_eq h)
      exact ⟨rfl, hxy⟩
    | index n => simp [toList_text_key, toList_text_index] at h
  | index m =>
    cases t with
    | key b => simp [toList_text_key, toList_text_index] at h
    | index n =>
      simp only [toList_text_index, List.cons_append, List.append_assoc, List.nil_append] at h
      obtain ⟨rfl, hxy⟩ := digits_append_inj (List.tail_eq_of_cons_eq h)
      exact ⟨rfl, hxy⟩

end Segment

/-! ## The text of a path -/

namespace Path

variable {p q : Path}

/-- The texts of segments one after the other. -/
def chars (p : Path) : List Char := p.flatMap fun s => s.text.toList

@[simp] lemma chars_nil : chars [] = [] := rfl

@[simp] lemma chars_cons (s : Segment) (p : Path) : chars (s :: p) = s.text.toList ++ chars p := rfl

lemma opens_head_chars (p : Path) : ∀ c ∈ p.chars.head?, Segment.Opens c := by
  cases p with
  | nil => simp
  | cons s p =>
    cases s with
    | key name => simp [Segment.toList_text_key, Segment.Opens]
    | index n => simp [Segment.toList_text_index, Segment.Opens]

/-- Segments without dots and brackets in their keys are determined by their texts. -/
lemma chars_inj (hp : ∀ s ∈ p, s.Clean) (hq : ∀ s ∈ q, s.Clean) (h : p.chars = q.chars) :
    p = q := by
  induction p generalizing q with
  | nil =>
    cases q with
    | nil => rfl
    | cons t q => cases t <;> simp [Segment.toList_text_key, Segment.toList_text_index] at h
  | cons s p ih =>
    cases q with
    | nil => cases s <;> simp [Segment.toList_text_key, Segment.toList_text_index] at h
    | cons t q =>
      rw [List.forall_mem_cons] at hp hq
      obtain ⟨rfl, hpq⟩ := Segment.text_append_inj hp.1 hq.1 (opens_head_chars p)
        (opens_head_chars q) h
      rw [ih hp.2 hq.2 hpq]

/-- What the text of a path begins with: the first key, or else the text of the empty path. -/
def lead : Path → String
  | [] => "<root>"
  | .key name :: _ => name
  | .index _ :: _ => ""

/-- The segments whose texts come after the lead. -/
def rest : Path → Path
  | .key _ :: p => p
  | p => p

lemma toList_text (p : Path) : p.text.toList = p.lead.toList ++ p.rest.chars := by
  match p with
  | [] => simp [text, lead, rest]
  | .key name :: p => simp [text, lead, rest, chars, String.toList_join, List.flatMap_map]
  | .index n :: p => simp [text, lead, rest, chars, String.toList_join, List.flatMap_map]

/-- A path whose text is the text of no other such path. -/
structure Proper (p : Path) : Prop where
  /-- There is neither a dot nor an opening bracket in its keys. -/
  clean : ∀ s ∈ p, s.Clean
  /-- It does not begin with an empty key. -/
  named : p.head? ≠ some (.key "")
  /-- It is not the single key that reads like the empty path. -/
  notRoot : p ≠ [.key "<root>"]

lemma Proper.clean_lead (h : p.Proper) : (Segment.key p.lead).Clean := by
  match p, h with
  | [], _ => decide
  | .key name :: p, h => exact h.clean _ List.mem_cons_self
  | .index n :: p, _ => exact (by decide : (Segment.key "").Clean)

lemma Proper.clean_rest (h : p.Proper) : ∀ s ∈ p.rest, s.Clean := by
  match p, h with
  | [], _ => simp [rest]
  | .key name :: p, h => exact fun s hs => h.clean s (List.mem_cons_of_mem _ hs)
  | .index n :: p, h => exact h.clean

/-- What is left out are just the paths that have lead and rest in common with others. -/
lemma Proper.eq_of_lead_eq (hp : p.Proper) (hq : q.Proper) (hlead : p.lead = q.lead)
    (hrest : p.rest = q.rest) : p = q := by
  have hnamed := hp.named
  have hnamed' := hq.named
  have hroot := hp.notRoot
  have hroot' := hq.notRoot
  match p, q with
  | [], [] => rfl
  | .key a :: p, .key b :: q => simp_all [lead, rest]
  | .index m :: p, .index n :: q => simpa [rest] using hrest
  | [], .key b :: q => simp_all [lead, rest]
  | .key a :: p, [] => simp_all [lead, rest]
  | [], .index n :: q => simp [rest] at hrest
  | .index m :: p, [] => simp [rest] at hrest
  | .key a :: p, .index n :: q => simp_all [lead]
  | .index m :: p, .key b :: q => simp_all [lead]

/-- A proper path is determined by its text. -/
theorem Proper.eq_of_text_eq (hp : p.Proper) (hq : q.Proper) (h : p.text = q.text) : p = q := by
  have hchars := congrArg String.toList h
  rw [toList_text, toList_text] at hchars
  obtain ⟨hlead, hrest⟩ := Segment.key_append_inj hp.clean_lead hq.clean_lead
    (opens_head_chars _) (opens_head_chars _) hchars
  exact hp.eq_of_lead_eq hq hlead (chars_inj hp.clean_rest hq.clean_rest hrest)

-- Each of the three conditions rules out a pair of paths with one text.
example : Path.text [.key "a.b"] = Path.text [.key "a", .key "b"] := by decide

example : Path.text [.key "", .index 0] = Path.text [.index 0] := by decide

example : Path.text [.key "<root>"] = Path.text Path.root := by decide

end Path

/-! ## The paths of errors -/

namespace Schemas

variable {S : Schemas} {kind : Kind (Fin S.size)} {v : Json} {e : ValidationError} {name : String}

/-- The keys in the path of an error are keys of tables. -/
lemma mem_wires_of_mem_check (he : e ∈ S.check kind v) (hname : .key name ∈ e.path) :
    ∃ i, name ∈ (S.table i).wires := by
  induction kind, v using descend generalizing e with
  | flat kind v hflat =>
    rcases (mem_check_of_flat hflat).1 he with ⟨-, rfl⟩ | ⟨literals, s, -, -, -, rfl⟩
    · simp [mismatch, Path.root] at hname
    · simp [Path.root] at hname
  | array item items ih =>
    obtain ⟨n, w, hw, e', he', rfl⟩ := mem_check_array_iff.1 he
    rw [ValidationError.path_under, List.mem_cons] at hname
    exact ih w (List.mem_of_getElem? hw) he' (hname.resolve_left (by simp))
  | record i ms ih =>
    rcases mem_check_record_iff.1 he with hmissing | ⟨f, hf, hinside⟩
    · obtain ⟨f, hf, -, -, rfl⟩ := mem_missingFields_iff.1 hmissing
      obtain rfl : name = f.wire := by
        simpa [ValidationError.missing, Path.key, Path.root] using hname
      exact ⟨i, List.mem_map.2 ⟨f, hf, rfl⟩⟩
    · obtain ⟨w, hw, e', he', rfl⟩ := mem_checkField_iff.1 hinside
      rw [ValidationError.path_under, List.mem_cons] at hname
      rcases hname with hhere | hinside
      · obtain rfl := Segment.key.inj hhere
        exact ⟨i, List.mem_map.2 ⟨f, hf, rfl⟩⟩
      · exact ih f hf w hw he' hinside

lemma mem_wires_of_mem_checkRecord {i : Fin S.size} (he : e ∈ S.checkRecord i v)
    (hname : .key name ∈ e.path) : ∃ j, name ∈ (S.table j).wires := by
  cases v with
  | object ms => exact mem_wires_of_mem_check he hname
  | _ =>
    obtain rfl := List.mem_singleton.1 he
    simp [mismatch, Path.root] at hname

end Schemas

namespace Model

/-- The keys of a test read are clean, and none of them is empty or stands for the root. -/
lemma proper_wire {i : Fin schemas.size} {name : String}
    (h : name ∈ (schemas.table i).wires) :
    (Segment.key name).Clean ∧ name ≠ "" ∧ name ≠ "<root>" := by
  have hall : ∀ d ∈ declarations, ∀ wire ∈ d.wires,
      (Segment.key wire).Clean ∧ wire ≠ "" ∧ wire ≠ "<root>" := by decide
  refine hall _ ?_ name (Table.wires_map schemas.nameOf _ ▸ h)
  rw [← declarations_of_resolve resolve_declarations]
  exact schemas.map_table_mem i

lemma proper_path {i : Fin schemas.size} {v : Json} {e : ValidationError}
    (he : e ∈ schemas.checkRecord i v) : e.path.Proper := by
  have hkey : ∀ name, .key name ∈ e.path →
      (Segment.key name).Clean ∧ name ≠ "" ∧ name ≠ "<root>" := by
    intro name hname
    obtain ⟨j, hj⟩ := Schemas.mem_wires_of_mem_checkRecord he hname
    exact proper_wire hj
  refine ⟨fun s hs => ?_, fun hhead => ?_, fun hroot => ?_⟩
  · cases s with
    | key name => exact (hkey name hs).1
    | index n => trivial
  · exact (hkey "" (List.mem_of_mem_head? hhead)).2.1 rfl
  · exact (hkey "<root>" (by simp [hroot])).2.2 rfl

end Model

/-- Paths are told apart by their texts, if no key has a dot or an opening bracket in it, the
first key is not empty, and the path is not the single key `<root>`.  No two errors that
validation reports of a test read have one text for their paths. -/
theorem text_path_unambiguous :
    (∀ p q : Path, p.Proper → q.Proper → p.text = q.text → p = q) ∧
    ∀ (m : Model) (payload : Json), ∃ errors,
      Model.schemas.validate m.name payload = .ok errors ∧
      (errors.map fun e => e.path.text).Nodup := by
  refine ⟨fun p q hp hq => hp.eq_of_text_eq hq, fun m payload => ?_⟩
  refine ⟨_, Schemas.validate_eq m.nameOf_position payload, ?_⟩
  have hpaths : ((Model.schemas.checkRecord m.position payload).map ValidationError.path).Nodup :=
    Schemas.nodup_paths_checkRecord Model.nodup_wires
  refine List.pairwise_map.2 ((List.pairwise_map.1 hpaths).imp_of_mem
    fun {e e'} he he' hpath htext => hpath ?_)
  exact (Model.proper_path he).eq_of_text_eq (Model.proper_path he') htext

/-- The key `1` and the position 1 are told apart. -/
theorem text_path_unambiguous_indices :
    Path.Proper [.key "a", .index 1] ∧ Path.Proper [.key "a", .key "1"] ∧
      Path.text [.key "a", .index 1] ≠ Path.text [.key "a", .key "1"] := by
  have hindex : Path.Proper [.key "a", .index 1] := ⟨by decide, by decide, by decide⟩
  have hkey : Path.Proper [.key "a", .key "1"] := ⟨by decide, by decide, by decide⟩
  refine ⟨hindex, hkey, fun htext => ?_⟩
  have hsame := text_path_unambiguous.1 _ _ hindex hkey htext
  exact absurd hsame (by decide)

end RecordSchema
