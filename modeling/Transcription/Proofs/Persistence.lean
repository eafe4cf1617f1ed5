import Transcription.CurrencyTable
import Transcription.Engine.Persisted
import Transcription.GeoTable
import Transcription.Proofs.Address.RoundTrip
import Transcription.Proofs.Json.Persistence
import Transcription.Proofs.Settings.RoundTrip

/-!
# The kept types

Choices, records of a transcription, currency records, address ranges and settings are all kept
lawfully: a choice is read back from its name, a record from its members, and the parts of a record
by the way their own type is kept. The numbers of a record have 64 bits when it is read, and it can
be written and read back when they do.
-/

namespace Transcription

open Json

namespace QuotePolicy

theorem isLawful : IsLawful QuotePolicy fun _ => True where
  isLegible_toJson p := .ofString p.name
  ofJson?_toJson p _ := ofName?_name p
  storable_of_ofJson? _ _ _ := trivial

end QuotePolicy

namespace Placement

theorem isLawful : IsLawful Placement fun _ => True where
  isLegible_toJson p := .ofString p.name
  ofJson?_toJson p _ := ofName?_name p
  storable_of_ofJson? _ _ _ := trivial

end Placement

namespace Span

theorem isLawful : IsLawful Span IsStorable where
  isLegible_toJson s := .ofMembers (by simp [IsLegible.ofNat])
  ofJson?_toJson s := by
    rintro ⟨hstart, hstop⟩
    have hfields : fields? ["start", "end"] (toJson s) =
        some [some (ofNat s.start), some (ofNat s.stop)] := fields?_ofMembers rfl (by decide)
    show (fields? ["start", "end"] (toJson s)).bind _ = some s
    rw [hfields]
    simp [natural?_ofNat hstart, natural?_ofNat hstop]
  storable_of_ofJson? j s h := by
    obtain ⟨vs, -, h⟩ := Option.bind_eq_some_iff.mp h
    split at h
    · simp only [Option.bind_eq_bind, Option.bind_eq_some_iff, Option.some.injEq] at h
      obtain ⟨start, hstart, stop, hstop, rfl⟩ := h
      exact ⟨natural?_le hstart, natural?_le hstop⟩
    · cases h

end Span

namespace RuleHit

theorem isLawful : IsLawful RuleHit IsStorable where
  isLegible_toJson h := .ofMembers (by simp [IsLegible.ofString, IsLegible.ofNat])
  ofJson?_toJson h hcount := by
    have hfields : fields? ["keyword", "replacement", "count"] (toJson h) =
        some [some (ofString h.keyword), some (ofString h.replacement), some (ofNat h.count)] :=
      fields?_ofMembers rfl (by decide)
    show (fields? ["keyword", "replacement", "count"] (toJson h)).bind _ = some h
    rw [hfields]
    simp [natural?_ofNat hcount]
  storable_of_ofJson? j hit h := by
    obtain ⟨vs, -, h⟩ := Option.bind_eq_some_iff.mp h
    split at h
    · simp only [Option.bind_eq_bind, Option.bind_eq_some_iff, Option.some.injEq] at h
      obtain ⟨keyword, -, replacement, -, count, hcount, rfl⟩ := h
      exact natural?_le hcount
    · cases h

end RuleHit

namespace Report

theorem isLawful : IsLawful Report IsStorable where
  isLegible_toJson r := by
    have happlied : IsLegible (.array (r.applied.map toJson)) := by
      refine .array fun j hj => ?_
      obtain ⟨h, -, rfl⟩ := List.mem_map.mp hj
      exact RuleHit.isLawful.isLegible_toJson h
    exact .ofMembers (by simp [IsLegible.ofString, IsLegible.ofNat, IsLegible.bool, happlied])
  ofJson?_toJson r := by
    rintro ⟨happlied, hplaceholders, helapsed⟩
    have hlist : list? ofJson? (.array (r.applied.map toJson)) = some r.applied :=
      list?_array_map fun h hh => RuleHit.isLawful.ofJson?_toJson h (happlied h hh)
    have hfields : fields? ["text", "changed", "applied", "currency_placeholders", "elapsed_us"]
        (toJson r) = some [some (ofString r.text), some (.bool r.changed),
          some (.array (r.applied.map toJson)), some (ofNat r.currencyPlaceholders),
          some (ofNat r.elapsedMicros)] := fields?_ofMembers rfl (by decide)
    show (fields? ["text", "changed", "applied", "currency_placeholders", "elapsed_us"]
      (toJson r)).bind _ = some r
    rw [hfields]
    simp [hlist, natural?_ofNat hplaceholders, natural?_ofNat helapsed]
  storable_of_ofJson? j r h := by
    obtain ⟨vs, -, h⟩ := Option.bind_eq_some_iff.mp h
    split at h
    · simp only [Option.bind_eq_bind, Option.bind_eq_some_iff, Option.some.injEq] at h
      obtain ⟨text, -, changed, -, applied, happlied, placeholders, hplaceholders, elapsed,
        helapsed, rfl⟩ := h
      have hhits := forall_of_list? RuleHit.isLawful.storable_of_ofJson? happlied
      exact ⟨hhits, natural?_le hplaceholders, natural?_le helapsed⟩
    · cases h

end Report

namespace CurrencyRecord

theorem isLawful : IsLawful CurrencyRecord fun _ => True where
  isLegible_toJson r := by
    have hcurrency : IsLegible (ofMembers [("symbol", ofString r.symbol)]) :=
      .ofMembers (by simp [IsLegible.ofString])
    have hlanguage : IsLegible (ofMembers [("code", ofString r.language)]) :=
      .ofMembers (by simp [IsLegible.ofString])
    exact .ofMembers (by simp [IsLegible.ofString, hcurrency, hlanguage])
  ofJson?_toJson r _ := by
    have hcurrency : fields? ["symbol"] (ofMembers [("symbol", ofString r.symbol)]) =
        some [some (ofString r.symbol)] := fields?_ofMembers rfl (by decide)
    have hlanguage : fields? ["code"] (ofMembers [("code", ofString r.language)]) =
        some [some (ofString r.language)] := fields?_ofMembers rfl (by decide)
    have hfields : fields? ["code", "currency", "language"] (toJson r) =
        some [some (ofString r.country), some (ofMembers [("symbol", ofString r.symbol)]),
          some (ofMembers [("code", ofString r.language)])] := fields?_ofMembers rfl (by decide)
    show (fields? ["code", "currency", "language"] (toJson r)).bind _ = some r
    rw [hfields]
    simp [hcurrency, hlanguage]
  storable_of_ofJson? _ _ _ := trivial

end CurrencyRecord

namespace GeoRange

theorem address?_ofString_toString (a : Address) : address? (ofString (toString a)) = some a :=
  Address.ofString?_toString a

theorem isLawful : IsLawful GeoRange fun _ => True where
  isLegible_toJson r := .ofMembers (by simp [IsLegible.ofString])
  ofJson?_toJson r _ := by
    have hfields : fields? ["start", "end", "country"] (toJson r) =
        some [some (ofString (toString r.first)), some (ofString (toString r.last)),
          some (ofString r.country)] := fields?_ofMembers rfl (by decide)
    show (fields? ["start", "end", "country"] (toJson r)).bind _ = some r
    rw [hfields]
    simp [address?_ofString_toString]
  storable_of_ofJson? _ _ _ := trivial

end GeoRange

namespace Settings

theorem isLawful : IsLawful Settings fun _ => True where
  isLegible_toJson := isLegible_toJson
  ofJson?_toJson s _ := ofJson?_toJson s
  storable_of_ofJson? _ _ _ := trivial

end Settings

/-- Every value of the eight kept types is read back from its compact text and from its pretty text,
as long as its numbers have 64 bits; and for every text that is accepted, what is written for its
value is a canonical form of it. The pretty text of settings is read back by way of a document, too,
as a settings file is. -/
theorem persisted_round_trip :
    IsRoundTrip QuotePolicy (fun _ => True) ∧ IsRoundTrip Placement (fun _ => True) ∧
    IsRoundTrip Span Span.IsStorable ∧ IsRoundTrip RuleHit RuleHit.IsStorable ∧
    IsRoundTrip Report Report.IsStorable ∧ IsRoundTrip CurrencyRecord (fun _ => True) ∧
    IsRoundTrip GeoRange (fun _ => True) ∧ IsRoundTrip Settings (fun _ => True) ∧
    ∀ s : Settings, (parseDocument? (encodePretty s)).bind ofJson? = some s := by
  refine ⟨QuotePolicy.isLawful.isRoundTrip, Placement.isLawful.isRoundTrip,
    Span.isLawful.isRoundTrip, RuleHit.isLawful.isRoundTrip, Report.isLawful.isRoundTrip,
    CurrencyRecord.isLawful.isRoundTrip, GeoRange.isLawful.isRoundTrip,
    Settings.isLawful.isRoundTrip, fun s => ?_⟩
  have hdocument : parseDocument? (encodePretty s) = some (toJson s) :=
    Settings.parseDocument?_fileText s
  rw [hdocument, Option.bind_some, Settings.ofJson?_toJson]

/-- A range from a mapped address to one with two equally long runs of zeros, of a country whose
name needs every kind of escape. -/
def mappedRange : GeoRange :=
  ⟨.v6 #v[0, 0, 0, 0, 0, 0xFFFF, 0xC000, 0x0201], .v6 #v[0x2001, 0, 0, 1, 0, 0, 0, 0],
    "\x22\\\n\x01\u007f é"⟩

/-- The range is read back. -/
theorem persisted_round_trip_mappedRange :
    decode? GeoRange (encode mappedRange) = some mappedRange :=
  persisted_round_trip.2.2.2.2.2.2.1.compact mappedRange trivial

end Transcription
