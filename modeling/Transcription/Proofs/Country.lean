import Transcription.Country
import Mathlib.Data.List.DropRight

/-!
# The normal form of a country code

What trimming leaves has no blank at either end, so trimming it again changes nothing, and nothing
is left of blank text only. Putting ASCII letters in upper case makes no character blank that was
none. Hence a country code in normal form is not empty, has no blanks around it and no ASCII letter
in lower case, and text has a normal form just when it is not blank. A document names a country by
its preferred code, or by the other one where the preferred one is missing or blank.
-/

namespace Transcription

namespace Text

theorem trimList_eq_rdropWhile (cs : List Char) :
    trimList cs = (cs.dropWhile isBlank).rdropWhile isBlank := rfl

theorem trimList_eq_nil_iff {cs : List Char} : trimList cs = [] ↔ cs.all isBlank = true := by
  rw [trimList, List.reverse_eq_nil_iff, List.dropWhile_eq_nil_iff, List.all_eq_true]
  constructor
  · intro h c hc
    by_contra hblank
    have hne : cs.dropWhile isBlank ≠ [] := by
      rw [Ne, List.dropWhile_eq_nil_iff]
      exact fun hall => hblank (hall c hc)
    -- what is left begins with a character that is not blank
    have hhead := List.head_dropWhile_not isBlank hne
    rw [h _ (List.mem_reverse.mpr (List.head_mem hne))] at hhead
    exact Bool.noConfusion hhead
  · intro h c hc
    exact h c ((List.dropWhile_sublist isBlank).subset (List.mem_reverse.mp hc))

theorem isEmpty_trimList (s : String) : (trimList s.toList).isEmpty = isBlankString s := by
  rw [Bool.eq_iff_iff, List.isEmpty_iff, trimList_eq_nil_iff]
  rfl

/-- What trimming leaves does not begin with a blank. -/
theorem dropWhile_trimList (cs : List Char) : (trimList cs).dropWhile isBlank = trimList cs := by
  have hbegin : trimList cs <+: cs.dropWhile isBlank := List.rdropWhile_prefix isBlank _
  cases hcs : cs.dropWhile isBlank with
  | nil =>
      rw [hcs, List.prefix_nil] at hbegin
      rw [hbegin]
      rfl
  | cons c rest =>
      have hc : isBlank c = false := by
        have hhead := List.head_dropWhile_not isBlank (hcs ▸ List.cons_ne_nil c rest)
        simpa only [hcs, List.head_cons] using hhead
      rw [hcs, List.prefix_cons_iff] at hbegin
      obtain h | ⟨t, h, -⟩ := hbegin
      · rw [h]
        rfl
      · rw [h, List.dropWhile_cons_of_neg (by simp [hc])]

@[simp] theorem trimList_trimList (cs : List Char) : trimList (trimList cs) = trimList cs := by
  rw [trimList_eq_rdropWhile (trimList cs), dropWhile_trimList, trimList_eq_rdropWhile,
    List.rdropWhile_idempotent]

theorem trimList_map {f : Char → Char} (h : ∀ c, isBlank (f c) = isBlank c) (cs : List Char) :
    trimList (cs.map f) = (trimList cs).map f := by
  have hcomp : isBlank ∘ f = isBlank := funext h
  rw [trimList, trimList, List.dropWhile_map, hcomp, ← List.map_reverse, List.dropWhile_map, hcomp,
    List.map_reverse]

end Text

namespace Country

open Text

/-- A letter that is put in upper case is not in lower case, and it is no blank. -/
theorem toUpper_ofNat : ∀ n, n < 123 → 97 ≤ n →
    (Char.ofNat n).toUpper.isLower = false ∧
      isBlank (Char.ofNat n).toUpper = isBlank (Char.ofNat n) := by
  decide

theorem isLower_iff {c : Char} : c.isLower = true ↔ 97 ≤ c.val ∧ c.val ≤ 122 := by
  show (decide (97 ≤ c.val) && decide (c.val ≤ 122)) = true ↔ _
  simp

theorem toUpper_of_isLower_eq_false {c : Char} (h : c.isLower = false) : c.toUpper = c := by
  refine dif_neg fun hrange => ?_
  rw [isLower_iff.mpr hrange] at h
  exact Bool.noConfusion h

/-- Putting a character in upper case leaves no letter in lower case and makes nothing blank. -/
theorem isLower_toUpper (c : Char) :
    c.toUpper.isLower = false ∧ isBlank c.toUpper = isBlank c := by
  cases h : c.isLower with
  | false => rw [toUpper_of_isLower_eq_false h, h]; exact ⟨rfl, rfl⟩
  | true =>
      have hrange : 97 ≤ c.toNat ∧ c.toNat ≤ 122 := by
        simpa [UInt32.le_iff_toNat_le, ← Char.toNat_val] using isLower_iff.mp h
      have hc := toUpper_ofNat c.toNat (by omega) hrange.1
      rwa [Char.ofNat_toNat] at hc

theorem toUpper_trim (code : String) :
    (trim code).toUpper = String.ofList ((trimList code.toList).map Char.toUpper) := by
  rw [String.toUpper, ← String.toList_inj, String.toList_map, toList_trim, String.toList_ofList]

/-- A code has a normal form just when it is not blank, and this is the trimmed code in upper
case. -/
theorem normalize?_eq (code : String) :
    normalize? code = if isBlankString code then none else some (trim code).toUpper := by
  rw [toUpper_trim, ← isEmpty_trimList]
  rfl

theorem normalize?_eq_some_iff {code country : String} :
    normalize? code = some country ↔
      isBlankString code = false ∧ country = (trim code).toUpper := by
  rw [normalize?_eq]
  cases isBlankString code <;> simp [eq_comm]

/-- A normal form has no blanks around it and no letter in lower case. -/
theorem trim_of_normalize? {code country : String} (h : normalize? code = some country) :
    trim country = country ∧ ∀ c ∈ country.toList, c.isLower = false := by
  obtain ⟨-, rfl⟩ := normalize?_eq_some_iff.mp h
  rw [toUpper_trim]
  constructor
  · rw [trim, String.toList_ofList, trimList_map fun c => (isLower_toUpper c).2, trimList_trimList]
  · intro c hc
    rw [String.toList_ofList] at hc
    obtain ⟨d, -, rfl⟩ := List.mem_map.mp hc
    exact (isLower_toUpper d).1

/-! ### Named countries -/

/-- A document has a code that is not blank under a key. -/
def IsUnder (code : String) (j : Json) (key : String) : Prop :=
  j.member? key = some (.ofString code) ∧ Text.isBlankString code = false

/-- A document names a country by a code: the preferred one if there is one. -/
def IsNamedIn (code : String) (j : Json) : Prop :=
  IsUnder code j "country_code" ∨
    (¬ ∃ other, IsUnder other j "country_code") ∧ IsUnder code j "country"

/-- What is found just when there is a code is not found just when there is none. -/
theorem eq_none_iff_of_eq_some_iff {found : Option String} {P : String → Prop}
    (h : ∀ country, found = some country ↔ ∃ code, P code ∧ country = (Text.trim code).toUpper) :
    found = none ↔ ¬ ∃ code, P code := by
  rw [Option.eq_none_iff_forall_ne_some]
  simp only [Ne, h]
  constructor
  · rintro h ⟨code, hcode⟩
    exact h _ ⟨code, hcode, rfl⟩
  · rintro h _ ⟨code, hcode, -⟩
    exact h ⟨code, hcode⟩

theorem bind_normalize?_eq_some_iff {j : Json} {key country : String} :
    ((j.member? key).bind Json.string?).bind normalize? = some country ↔
      ∃ code, IsUnder code j key ∧ country = (Text.trim code).toUpper := by
  simp only [Option.bind_eq_some_iff, Json.string?_eq_some_iff, exists_eq_right,
    normalize?_eq_some_iff, IsUnder, and_assoc]

theorem bind_normalize?_eq_none_iff {j : Json} {key : String} :
    ((j.member? key).bind Json.string?).bind normalize? = none ↔ ¬ ∃ code, IsUnder code j key :=
  eq_none_iff_of_eq_some_iff fun _ => bind_normalize?_eq_some_iff

/-- The country of a document is the normal form of the code that names it. -/
theorem ofDocument?_eq_some_iff {j : Json} {country : String} :
    ofDocument? j = some country ↔
      ∃ code, IsNamedIn code j ∧ country = (Text.trim code).toUpper := by
  have heq : ofDocument? j =
      (((j.member? "country_code").bind Json.string?).bind normalize?).or
        (((j.member? "country").bind Json.string?).bind normalize?) := by
    simp only [ofDocument?, locationKeys, List.findSome?_cons, List.findSome?_nil]
    cases ((j.member? "country_code").bind Json.string?).bind normalize? with
    | none => cases ((j.member? "country").bind Json.string?).bind normalize? <;> rfl
    | some _ => rfl
  rw [heq, Option.or_eq_some_iff, bind_normalize?_eq_some_iff, bind_normalize?_eq_none_iff,
    bind_normalize?_eq_some_iff]
  constructor
  · rintro (⟨code, hcode, h⟩ | ⟨hnone, code, hcode, h⟩)
    · exact ⟨code, .inl hcode, h⟩
    · exact ⟨code, .inr ⟨hnone, hcode⟩, h⟩
  · rintro ⟨code, hcode | ⟨hnone, hcode⟩, h⟩
    · exact .inl ⟨code, hcode, h⟩
    · exact .inr ⟨hnone, code, hcode, h⟩

theorem ofDocument?_eq_none_iff {j : Json} :
    ofDocument? j = none ↔ ¬ ∃ code, IsNamedIn code j :=
  eq_none_iff_of_eq_some_iff fun _ => ofDocument?_eq_some_iff

end Country

end Transcription
