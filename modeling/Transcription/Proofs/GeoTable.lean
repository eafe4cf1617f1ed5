import Transcription.Proofs.Address.Order
import Transcription.Proofs.Resolution
import Mathlib.Data.List.Find

/-!
# Looking an address up in a table of ranges

A range holds the addresses of one family whose numbers lie between the numbers of its ends, both
included. A table is asked for the first of its ranges that holds an address, and for no other.
Ranges behind that one are of no account, and where no two ranges of a table hold an address their
order is of no account either.
-/

namespace Transcription

open Text

namespace GeoRange

variable {r : GeoRange} {a : Address}

/-- A range holds an address when both ends are of its family and its number lies between theirs. -/
theorem contains_iff :
    r.contains a = true ↔ r.first.isV6 = a.isV6 ∧ r.last.isV6 = a.isV6 ∧
      r.first.value ≤ a.value ∧ a.value ≤ r.last.value := by
  rw [contains, Bool.and_eq_true, Address.le_iff, Address.le_iff, eq_comm (a := a.isV6)]
  constructor
  · rintro ⟨⟨hfirst, hlow⟩, hlast, hhigh⟩
    exact ⟨hfirst, hlast, hlow, hhigh⟩
  · rintro ⟨hfirst, hlast, hlow, hhigh⟩
    exact ⟨⟨hfirst, hlow⟩, hlast, hhigh⟩

/-- A range whose ends are reversed or of two families holds nothing. -/
theorem contains_eq_false_of_reversed_or_mixed
    (h : r.last.value < r.first.value ∨ r.first.isV6 ≠ r.last.isV6) : r.contains a = false := by
  rw [Bool.eq_false_iff]
  intro hcontains
  obtain ⟨hfirst, hlast, hlow, hhigh⟩ := contains_iff.mp hcontains
  rcases h with hreversed | hmixed
  · omega
  · exact hmixed (hfirst.trans hlast.symm)

/-- A range with an end of another family than an address does not hold it. -/
theorem contains_eq_false_of_isV6_ne (h : r.first.isV6 ≠ a.isV6 ∨ r.last.isV6 ≠ a.isV6) :
    r.contains a = false := by
  rw [Bool.eq_false_iff]
  intro hcontains
  obtain ⟨hfirst, hlast, -⟩ := contains_iff.mp hcontains
  rcases h with hne | hne
  · exact hne hfirst
  · exact hne hlast

/-- A range with an end of four octets holds no mapped form of such an address. -/
theorem contains_mapped_eq_false (h : r.first.isV6 = false ∨ r.last.isV6 = false)
    (high low : UInt16) : r.contains (.v6 #v[0, 0, 0, 0, 0, 0xffff, high, low]) = false := by
  apply contains_eq_false_of_isV6_ne
  rcases h with hfirst | hlast
  · exact .inl (hfirst ▸ Bool.false_ne_true)
  · exact .inr (hlast ▸ Bool.false_ne_true)

end GeoRange

namespace GeoTable

variable {t u : GeoTable} {r : GeoRange} {a : Address}

/-- No two different ranges of a table hold an address. -/
def HoldsOnce (t : GeoTable) (a : Address) : Prop :=
  ∀ r ∈ t, ∀ q ∈ t, r.contains a = true → q.contains a = true → r = q

instance (t : GeoTable) (a : Address) : Decidable (t.HoldsOnce a) :=
  inferInstanceAs (Decidable (∀ r ∈ t, ∀ q ∈ t, _))

/-- The first range that holds an address decides on its country, also when it names none. -/
theorem lookup_of_isFirstHolding (h : t.IsFirstHolding a r) :
    t.lookup a = if isBlankString r.country then none else some (trim r.country).toUpper := by
  rw [lookup, find?_contains_eq_some_iff.mpr h, Option.bind_some, Country.normalize?_eq]

theorem lookup_eq_none_of_forall (h : ∀ r ∈ t, r.contains a = false) : t.lookup a = none := by
  have hnone : List.find? (fun r => r.contains a) t = none :=
    List.find?_eq_none.mpr fun r hr => by simp [h r hr]
  rw [lookup, hnone, Option.bind_none]

/-- Ranges behind one that holds an address are not looked at. -/
theorem lookup_append (h : ∃ r ∈ t, r.contains a = true) (others : GeoTable) :
    (t ++ others).lookup a = t.lookup a := by
  have hsome : (List.find? (fun r => r.contains a) t).isSome = true := List.find?_isSome.mpr h
  rw [lookup, lookup, List.find?_append, Option.or_of_isSome hsome]

/-- Where no two ranges hold an address, the order of the ranges does not matter. -/
theorem lookup_perm (h : t.HoldsOnce a) (hperm : u.Perm t) : u.lookup a = t.lookup a := by
  have honce : {r ∈ t | r.contains a = true}.Subsingleton :=
    fun r hr q hq => h r hr.1 q hq.1 hr.2 hq.2
  rw [lookup, lookup, List.find?_eq_find?_of_perm hperm.symm honce]

/-- A range holds the addresses of one family whose numbers lie in the closed interval between its
ends; one with its ends reversed or mixed holds nothing, and an address of eight groups that is the
mapped form of four octets is in no range of four octets. The first range of a table that holds an
address decides on its country, which is the trimmed code in upper case, or none when that is blank.
Ranges that are added behind do not change the country of an address that was held, and the order of
the ranges does not change it when no two of them hold the address. -/
theorem lookup_by_first_holding (t : GeoTable) (a : Address) :
    (∀ r : GeoRange, r.contains a = true ↔ r.first.isV6 = a.isV6 ∧ r.last.isV6 = a.isV6 ∧
      r.first.value ≤ a.value ∧ a.value ≤ r.last.value) ∧
    (∀ r : GeoRange, r.last.value < r.first.value ∨ r.first.isV6 ≠ r.last.isV6 →
      r.contains a = false) ∧
    (∀ (r : GeoRange) (high low : UInt16), r.first.isV6 = false ∨ r.last.isV6 = false →
      r.contains (.v6 #v[0, 0, 0, 0, 0, 0xffff, high, low]) = false) ∧
    (∀ r, t.IsFirstHolding a r → t.lookup a =
      if isBlankString r.country then none else some (trim r.country).toUpper) ∧
    ((∀ r ∈ t, r.contains a = false) → t.lookup a = none) ∧
    (∀ others : GeoTable, (∃ r ∈ t, r.contains a = true) →
      (t ++ others).lookup a = t.lookup a) ∧
    (t.HoldsOnce a → ∀ u : GeoTable, u.Perm t → u.lookup a = t.lookup a) := by
  refine ⟨fun r => ?interval, fun r h => ?empty, fun r high low h => ?mapped, fun r h => ?first,
    fun h => ?none, fun others h => ?behind, fun h u hperm => ?order⟩
  case interval => exact GeoRange.contains_iff
  case empty => exact GeoRange.contains_eq_false_of_reversed_or_mixed h
  case mapped => exact GeoRange.contains_mapped_eq_false h high low
  case first => exact lookup_of_isFirstHolding h
  case none => exact lookup_eq_none_of_forall h
  case behind => exact lookup_append h others
  case order => exact lookup_perm h hperm

/-- Two ranges overlap, and the first one names no country: what they share has none, and what lies
in the second alone has its country in either order. Reversed, the second holds nothing. -/
theorem lookup_by_first_holding_overlapping :
    let low : GeoRange := ⟨.v4 #v[10, 0, 0, 0], .v4 #v[10, 0, 1, 9], " "⟩
    let high : GeoRange := ⟨.v4 #v[10, 0, 0, 250], .v4 #v[10, 0, 2, 0], " de "⟩
    let reversed : GeoRange := ⟨high.last, high.first, "de"⟩
    let shared : Address := .v4 #v[10, 0, 1, 0]
    let single : Address := .v4 #v[10, 0, 1, 255]
    let outside : Address := .v4 #v[10, 0, 2, 1]
    (IsFirstHolding [low, high] shared low ∧ high.contains shared = true ∧
      lookup [low, high] shared = none) ∧
    (IsFirstHolding [low, high] single high ∧ lookup [low, high] single = some "DE") ∧
    (HoldsOnce [low, high] single ∧ [high, low].Perm [low, high] ∧
      lookup [high, low] single = some "DE") ∧
    ((∃ r ∈ [low, high], r.contains single = true) ∧
      lookup ([low, high] ++ [low]) single = some "DE") ∧
    ((∀ r ∈ [low, high], r.contains outside = false) ∧ lookup [low, high] outside = none) ∧
    (reversed.last.value < reversed.first.value ∧ reversed.contains shared = false) ∧
    (low.first.isV6 = false ∧
      low.contains (.v6 #v[0, 0, 0, 0, 0, 0xffff, 0x0a00, 0x0001]) = false) := by
  intro low high reversed shared single outside
  obtain ⟨hcontains, hempty, hmapped, hfirst, -⟩ := lookup_by_first_holding [low, high] shared
  obtain ⟨-, -, -, hdecides, -, hbehind, horder⟩ := lookup_by_first_holding [low, high] single
  obtain ⟨-, -, -, -, hnone, -⟩ := lookup_by_first_holding [low, high] outside
  have hshared : IsFirstHolding [low, high] shared low := ⟨[], [high], rfl, by decide, by simp⟩
  have hsingle : IsFirstHolding [low, high] single high := ⟨[low], [], rfl, by decide, by decide⟩
  have hcode : (trim " de ").toUpper = "DE" := by
    rw [Country.toUpper_trim]
    decide
  have hcountry : lookup [low, high] single = some "DE" := by
    rw [hdecides high hsingle, if_neg (by decide)]
    exact congrArg some hcode
  have honce : HoldsOnce [low, high] single := by decide
  have hswap : [high, low].Perm [low, high] := .swap low high []
  have hheld : ∃ r ∈ [low, high], r.contains single = true := ⟨high, by simp, by decide⟩
  have houtside : ∀ r ∈ [low, high], r.contains outside = false := by decide
  have hreversed : reversed.last.value < reversed.first.value := by decide
  refine ⟨⟨hshared, (hcontains high).mpr (by decide), (hfirst low hshared).trans (by decide)⟩,
    ⟨hsingle, hcountry⟩, ⟨honce, hswap, (horder honce _ hswap).trans hcountry⟩,
    ⟨hheld, (hbehind [low] hheld).trans hcountry⟩, ⟨houtside, hnone houtside⟩,
    ⟨hreversed, hempty reversed (.inl hreversed)⟩, rfl, hmapped low _ _ (.inl rfl)⟩

end GeoTable

end Transcription
