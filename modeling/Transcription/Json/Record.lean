import Transcription.Json.Basic

/-!
# Records and choices in JSON

A record is written as an object with one member per field, in a fixed order. It is read from an
object, whose other members are ignored, or from an array that lists the fields in order. A known
key may not be given twice, and the keys of the object have to be readable, the ignored ones
included.

A choice among named cases is written as the name. It is read from the name or from an object
whose only member has the name as its key and `null` as its value.
-/

namespace Transcription.Json

/-- A type whose values are kept as JSON. -/
class Persisted (α : Type) where
  toJson : α → Json
  ofJson? : Json → Option α

export Persisted (toJson ofJson?)

/-- The values of the named fields of a record, in order; none for a field that is not given. -/
def fields? (names : List String) : Json → Option (List (Option Json))
  | .object ms =>
    if ms.all (fun m => m.1.isSome) &&
        names.all (fun n => decide ((ms.countP fun m => m.1 == some n) ≤ 1)) then
      some (names.map fun n => (ms.find? fun m => m.1 == some n).map Prod.snd)
    else none
  | .array items =>
    if items.length ≤ names.length then
      some (items.map some ++ List.replicate (names.length - items.length) none)
    else none
  | _ => none

/-- The name in a choice. -/
def case? : Json → Option String
  | .text content => content
  | .object [(key, .null)] => key
  | _ => none

/-- Read every item of an array. -/
def list? (read : Json → Option α) (j : Json) : Option (List α) :=
  j.items?.bind (·.mapM read)

/-- Read a value that may be `null` for none. -/
def option? (read : Json → Option α) : Json → Option (Option α)
  | .null => some none
  | j => (read j).map some

@[simp] theorem option?_null (read : Json → Option α) : option? read .null = some none := rfl

/-- A value that may be `null` is read where it is written, when reading inverts writing. -/
theorem option?_eq_some_iff {read : Json → Option α} {write : α → Json}
    (hread : ∀ j a, read j = some a ↔ j = write a) (hnull : ∀ a, write a ≠ .null) {j : Json}
    {o : Option α} : option? read j = some o ↔ j = ofOption write o := by
  cases o with
  | none => cases j <;> simp [option?, ofOption]
  | some a =>
      rw [ofOption, ← hread]
      cases j with
      | null =>
          have hnot : read .null ≠ some a := fun h => hnull a ((hread _ _).mp h).symm
          simp [hnot]
      | _ => simp [option?]

@[simp] theorem case?_ofString (s : String) : case? (ofString s) = some s := rfl

theorem case?_eq_some_iff {j : Json} {s : String} :
    case? j = some s ↔ j = ofString s ∨ j = .object [(some s, .null)] := by
  unfold case?
  split <;> simp_all [ofString]

/-- A list is read back when each of its items is. -/
theorem mapM_map_eq_some {read : β → Option α} {write : α → β} {as : List α}
    (h : ∀ a ∈ as, read (write a) = some a) : (as.map write).mapM read = some as := by
  induction as with
  | nil => rfl
  | cons a as ih => simp [List.mapM_cons, h a, ih fun b hb => h b (List.mem_cons_of_mem a hb)]

/-- A list is read item by item. -/
theorem exists_of_mapM_eq_some {read : β → Option α} {bs : List β} {as : List α}
    (h : bs.mapM read = some as) :
    (∀ b ∈ bs, ∃ a ∈ as, read b = some a) ∧ ∀ a ∈ as, ∃ b ∈ bs, read b = some a := by
  induction bs generalizing as with
  | nil =>
    obtain rfl : [] = as := by simpa using h
    simp
  | cons b bs ih =>
    simp only [List.mapM_cons, Option.bind_eq_bind, Option.bind_eq_some_iff, Option.pure_def,
      Option.some.injEq] at h
    obtain ⟨a, ha, rest, hrest, rfl⟩ := h
    obtain ⟨hread, hfrom⟩ := ih hrest
    constructor
    · intro c hc
      obtain rfl | hc := List.mem_cons.mp hc
      · exact ⟨a, by simp, ha⟩
      · obtain ⟨x, hx, hcx⟩ := hread c hc
        exact ⟨x, List.mem_cons_of_mem a hx, hcx⟩
    · intro x hx
      obtain rfl | hx := List.mem_cons.mp hx
      · exact ⟨b, by simp, ha⟩
      · obtain ⟨c, hc, hcx⟩ := hfrom x hx
        exact ⟨c, List.mem_cons_of_mem b hc, hcx⟩

/-- An array is read back item by item. -/
theorem list?_array_map {read : Json → Option α} {write : α → Json} {as : List α}
    (h : ∀ a ∈ as, read (write a) = some a) : list? read (.array (as.map write)) = some as := by
  rw [list?, items?_array, Option.bind_some, mapM_map_eq_some h]

end Transcription.Json
