import Transcription.Proofs.Json.Document
import Transcription.Proofs.Json.RoundTrip

/-!
# Keeping values as texts

A way of keeping the values of a type is lawful when what it writes is legible and is read back, and
when what it reads could have been written. Lawful values are read back from their texts in either
layout. A text that is accepted need not be the one that is written for its value, but writing what
was read gives a canonical form of it, which is not changed by reading and writing again.
-/

namespace Transcription.Json

/-- The value of a type that a text holds. -/
def decode? (α : Type) [Persisted α] (s : String) : Option α :=
  (parse? s).bind ofJson?

/-- The compact text of a value. -/
def encode {α : Type} [Persisted α] (a : α) : String := compact (toJson a)

/-- The pretty text of a value. -/
def encodePretty {α : Type} [Persisted α] (a : α) : String := pretty (toJson a)

/-- What is asked of a way to keep the storable values of a type. -/
structure IsLawful (α : Type) [Persisted α] (storable : α → Prop) : Prop where
  isLegible_toJson : ∀ a : α, IsLegible (toJson a)
  ofJson?_toJson : ∀ a : α, storable a → ofJson? (toJson a) = some a
  storable_of_ofJson? : ∀ (j : Json) (a : α), ofJson? j = some a → storable a

/-- The storable values of a type are read back from their texts, and the compact text of what is
read from any text is a canonical form of that text: it holds the same value, and writing what it
holds leaves its bytes as they are. -/
structure IsRoundTrip (α : Type) [Persisted α] (storable : α → Prop) : Prop where
  compact : ∀ a : α, storable a → decode? α (encode a) = some a
  pretty : ∀ a : α, storable a → decode? α (encodePretty a) = decode? α (encode a)
  canonical : ∀ (s : String) (a : α), decode? α s = some a →
    decode? α (encode a) = some a ∧ (decode? α (encode a)).map encode = some (encode a)

namespace IsLawful

variable {α : Type} [Persisted α] {storable : α → Prop}

theorem decode?_encode (h : IsLawful α storable) {a : α} (ha : storable a) :
    decode? α (encode a) = some a := by
  rw [decode?, encode, parse?_compact (h.isLegible_toJson a), Option.bind_some,
    h.ofJson?_toJson a ha]

theorem decode?_encodePretty (h : IsLawful α storable) {a : α} (ha : storable a) :
    decode? α (encodePretty a) = some a := by
  rw [decode?, encodePretty, parse?_pretty (h.isLegible_toJson a), Option.bind_some,
    h.ofJson?_toJson a ha]

/-- What a text holds is storable, whatever the text is. -/
theorem storable_of_decode? (h : IsLawful α storable) {s : String} {a : α}
    (hread : decode? α s = some a) : storable a := by
  obtain ⟨j, -, hj⟩ := Option.bind_eq_some_iff.mp hread
  exact h.storable_of_ofJson? j a hj

theorem isRoundTrip (h : IsLawful α storable) : IsRoundTrip α storable where
  compact _ ha := h.decode?_encode ha
  pretty _ ha := (h.decode?_encodePretty ha).trans (h.decode?_encode ha).symm
  canonical s a hread := by
    have hback : decode? α (encode a) = some a := h.decode?_encode (h.storable_of_decode? hread)
    exact ⟨hback, by rw [hback, Option.map_some]⟩

end IsLawful

/-! ### Records -/

/-- A keyed member is the one that its key has. -/
theorem IsKeyed.member?_of_mem {ms : List (Text × Json)} (h : IsKeyed ms) {key : String} {j : Json}
    (hm : (some key, j) ∈ ms) : member? key (.object ms) = some j := by
  rw [h.member?_eq]
  cases hfind : ms.find? (fun m => m.1 == some key) with
  | none => exact absurd (List.find?_eq_none.mp hfind _ hm) (by simp)
  | some n =>
      have hkey : n.1 = some key := by simpa using List.find?_some hfind
      obtain rfl : n = (some key, j) :=
        List.inj_on_of_nodup_map h.nodup (List.mem_of_find?_eq_some hfind) hm hkey
      rfl

/-- Written members are the fields of a record, one for each name. -/
theorem fields?_ofMembers {ms : List (String × Json)} {names : List String}
    (hnames : ms.map Prod.fst = names) (hnodup : names.Nodup) :
    fields? names (ofMembers ms) = some (ms.map fun m => some m.2) := by
  subst hnames
  have hkeyed := isKeyed_map_some hnodup
  rw [ofMembers, hkeyed.fields?_eq, List.map_map]
  refine congrArg some (List.map_congr_left fun m hm => ?_)
  exact hkeyed.member?_of_mem (List.mem_map_of_mem hm)

/-- All keys are readable, and just one member has the given key; it holds the value. -/
def IsOnly (ms : List (Text × Json)) (key : String) (v : Json) : Prop :=
  ∃ before after, ms = before ++ (some key, v) :: after ∧
    ∀ m ∈ before ++ after, m.1.isSome = true ∧ m.1 ≠ some key

theorem countP_key_eq_zero_iff {ms : List (Text × Json)} {key : String} :
    (ms.countP fun m => m.1 == some key) = 0 ↔ ∀ m ∈ ms, m.1 ≠ some key := by
  simp [List.countP_eq_zero]

/-- An object in a record of one field has the key of the field once. -/
theorem isOnly_of_fields?_singleton {ms : List (Text × Json)} {key : String} {v : Json}
    (h : fields? [key] (.object ms) = some [some v]) : IsOnly ms key v := by
  rw [fields?] at h
  split at h
  · next hms =>
      simp only [List.all_cons, List.all_nil, Bool.and_true, Bool.and_eq_true,
        List.all_eq_true, decide_eq_true_eq] at hms
      obtain ⟨hkeys, honce⟩ := hms
      simp only [List.map_cons, List.map_nil, Option.some.injEq, List.cons.injEq, and_true] at h
      obtain ⟨⟨k, _⟩, hfind, rfl⟩ := Option.map_eq_some_iff.mp h
      obtain ⟨hk, before, after, rfl, hbefore⟩ := List.find?_eq_some_iff_append.mp hfind
      obtain rfl : k = some key := by simpa using hk
      -- the member that was found is the only one that is counted
      have hafter : (after.countP fun m => m.1 == some key) = 0 := by
        simp only [List.countP_append, List.countP_cons, beq_self_eq_true, if_true] at honce
        omega
      refine ⟨before, after, rfl, fun m hm => ⟨hkeys m ?_, ?_⟩⟩
      · simp only [List.mem_append, List.mem_cons] at hm ⊢
        exact hm.imp_right .inr
      · obtain hm | hm := List.mem_append.mp hm
        · simpa using hbefore m hm
        · exact countP_key_eq_zero_iff.mp hafter m hm
  · cases h

/-- An object that has a key once is a record of one field. -/
theorem fields?_singleton_of_isOnly {ms : List (Text × Json)} {key : String} {v : Json}
    (h : IsOnly ms key v) : fields? [key] (.object ms) = some [some v] := by
  obtain ⟨before, after, rfl, hms⟩ := h
  have hbefore : ∀ m ∈ before, m.1 ≠ some key := fun m hm =>
    (hms m (List.mem_append_left after hm)).2
  have hafter : ∀ m ∈ after, m.1 ≠ some key := fun m hm =>
    (hms m (List.mem_append_right before hm)).2
  have hfind : (before ++ (some key, v) :: after).find? (fun m => m.1 == some key) =
      some (some key, v) := by
    rw [List.find?_eq_some_iff_append]
    exact ⟨by simp, before, after, rfl, by simpa using hbefore⟩
  rw [fields?, if_pos]
  · rw [List.map_cons, List.map_nil, hfind, Option.map_some]
  · simp only [List.all_cons, List.all_nil, Bool.and_true, Bool.and_eq_true,
      List.all_eq_true, decide_eq_true_eq, List.countP_append, List.countP_cons,
      countP_key_eq_zero_iff.mpr hbefore, countP_key_eq_zero_iff.mpr hafter]
    constructor
    · intro m hm
      simp only [List.mem_append, List.mem_cons] at hm
      obtain hm | rfl | hm := hm
      · exact (hms m (List.mem_append_left after hm)).1
      · rfl
      · exact (hms m (List.mem_append_right before hm)).1
    · simp

/-- A record of one field is an array with one item or an object that has the field once. -/
theorem fields?_singleton_eq_some_iff {key : String} {j v : Json} :
    fields? [key] j = some [some v] ↔
      j = .array [v] ∨ ∃ ms, j = .object ms ∧ IsOnly ms key v := by
  cases j with
  | array items =>
      match items with
      | [] => simp [fields?]
      | [item] => simp [fields?]
      | item :: other :: items => simp [fields?]
  | object ms =>
      constructor
      · intro h
        exact .inr ⟨ms, rfl, isOnly_of_fields?_singleton h⟩
      · rintro (h | ⟨_, h, honly⟩)
        · cases h
        · cases h
          exact fields?_singleton_of_isOnly honly
  | null => simp [fields?]
  | bool b => simp [fields?]
  | number n => simp [fields?]
  | text content => simp [fields?]

/-- What every item of an array is read to has, every item of the list has. -/
theorem forall_of_list? {α : Type} {read : Json → Option α} {P : α → Prop}
    (h : ∀ j a, read j = some a → P a) {j : Json} {as : List α} (hread : list? read j = some as) :
    ∀ a ∈ as, P a := by
  obtain ⟨items, -, hitems⟩ := Option.bind_eq_some_iff.mp hread
  intro a ha
  obtain ⟨item, -, hitem⟩ := (exists_of_mapM_eq_some hitems).2 a ha
  exact h item a hitem

end Transcription.Json
