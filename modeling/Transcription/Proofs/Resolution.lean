import Transcription.GeoTable
import Transcription.Resolution
import Transcription.Proofs.Country

/-!
# Outcomes of a resolution

The answers of the two services settle the outcome: they lead to a country, or nowhere, for a reason
that tells which of the two steps went wrong. A record is then the first one of the country, and the
currency is its symbol. In any state a resolver has the outcome that its answers settle, and the
locator is asked for the public address, when there is one, and for nothing else.
-/

namespace Transcription

section Except

variable {ε α β : Type} {x : Except ε α}

theorem Except.bind_eq_ok_iff {f : α → Except ε β} {b : β} :
    x.bind f = .ok b ↔ ∃ a, x = .ok a ∧ f a = .ok b := by
  cases x <;> simp [Except.bind]

theorem Except.bind_eq_error_iff {f : α → Except ε β} {e : ε} :
    x.bind f = .error e ↔ x = .error e ∨ ∃ a, x = .ok a ∧ f a = .error e := by
  cases x <;> simp [Except.bind]

theorem Except.map_eq_ok_iff {f : α → β} {b : β} :
    x.map f = .ok b ↔ ∃ a, x = .ok a ∧ f a = b := by
  cases x <;> simp [Except.map]

theorem Except.map_eq_error_iff {f : α → β} {e : ε} :
    x.map f = .error e ↔ x = .error e := by
  cases x <;> simp [Except.map]

theorem Except.mapError_eq_ok_iff {δ : Type} {f : ε → δ} {a : α} :
    x.mapError f = .ok a ↔ x = .ok a := by
  cases x <;> simp [Except.mapError]

theorem Except.exists_eq_error_iff : (∃ e, x = .error e) ↔ ¬ ∃ a, x = .ok a := by
  cases x <;> simp

end Except

/-- What follows a computation goes on with its value where it ends. -/
theorem run_bind_of_run_eq {σ α β : Type} {x : StateM σ α} {f : α → StateM σ β} {s t : σ} {a : α}
    (h : x.run s = (a, t)) : (x >>= f).run s = (f a).run t := by
  rw [StateT.run_bind, h]
  rfl

namespace CurrencyTable

/-- A record is the first one of a country. -/
def IsFirstOf (t : CurrencyTable) (country : String) (r : CurrencyRecord) : Prop :=
  ∃ before after, t = before ++ r :: after ∧ r.country = country ∧
    ∀ q ∈ before, q.country ≠ country

theorem find?_eq_some_iff {t : CurrencyTable} {country : String} {r : CurrencyRecord} :
    t.find? country = some r ↔ t.IsFirstOf country r := by
  rw [find?, List.find?_eq_some_iff_append]
  constructor
  · rintro ⟨hr, before, after, rfl, hbefore⟩
    exact ⟨before, after, rfl, by simpa using hr, by simpa using hbefore⟩
  · rintro ⟨before, after, rfl, hr, hbefore⟩
    exact ⟨by simpa using hr, before, after, rfl, by simpa using hbefore⟩

theorem IsFirstOf.country_eq {t : CurrencyTable} {country : String} {r : CurrencyRecord}
    (h : t.IsFirstOf country r) : r.country = country := by
  obtain ⟨_, _, -, hr, -⟩ := h
  exact hr

theorem find?_eq_none_iff {t : CurrencyTable} {country : String} :
    t.find? country = none ↔ ∀ r ∈ t, r.country ≠ country := by
  simp [find?]

end CurrencyTable

namespace GeoTable

/-- A range is the first one that holds an address. -/
def IsFirstHolding (t : GeoTable) (a : Address) (r : GeoRange) : Prop :=
  ∃ before after, t = before ++ r :: after ∧ r.contains a = true ∧
    ∀ q ∈ before, q.contains a = false

theorem find?_contains_eq_some_iff {t : GeoTable} {a : Address} {r : GeoRange} :
    List.find? (fun r => r.contains a) t = some r ↔ t.IsFirstHolding a r := by
  rw [List.find?_eq_some_iff_append]
  constructor
  · rintro ⟨hr, before, after, rfl, hbefore⟩
    exact ⟨before, after, rfl, hr, by simpa using hbefore⟩
  · rintro ⟨before, after, rfl, hr, hbefore⟩
    exact ⟨hr, before, after, rfl, by simpa using hbefore⟩

/-- The country of an address is the normal form of what the first range that holds it names. -/
theorem lookup_eq_some_iff {t : GeoTable} {a : Address} {country : String} :
    t.lookup a = some country ↔ ∃ r, t.IsFirstHolding a r ∧
      Text.isBlankString r.country = false ∧ country = (Text.trim r.country).toUpper := by
  rw [lookup, Option.bind_eq_some_iff]
  simp only [find?_contains_eq_some_iff, Country.normalize?_eq_some_iff]

end GeoTable

namespace Resolver

variable {ι γ σ : Type} {ip : Except ι Address} {geo : Address → Except γ (Option String)}
variable {table : CurrencyTable}

/-- The resolver that has its answers without asking anybody. -/
def ofAnswers (ip : Except ι Address) (geo : Address → Except γ (Option String)) :
    Resolver Id ι γ where
  publicAddress := pure ip
  locate a := pure (geo a)

/-- The answers lead to a country. -/
def LeadsTo (ip : Except ι Address) (geo : Address → Except γ (Option String))
    (country : String) : Prop :=
  ∃ a, ip = .ok a ∧ geo a = .ok (some country)

/-- The answers lead to no country, for a reason. -/
inductive LeadsNowhere (ip : Except ι Address) (geo : Address → Except γ (Option String)) :
    ResolveError ι γ → Prop where
  | ipLookup {cause : ι} (h : ip = .error cause) : LeadsNowhere ip geo (.ipLookup cause)
  | geoLookup {a : Address} {cause : γ} (h : ip = .ok a) (hgeo : geo a = .error cause) :
    LeadsNowhere ip geo (.geoLookup a cause)
  | noCountry {a : Address} (h : ip = .ok a) (hgeo : geo a = .ok none) :
    LeadsNowhere ip geo (.noCountry a)

/-- No record is found: there is no country, or there is one and no record has it. -/
def LeadsToNoRecord (ip : Except ι Address) (geo : Address → Except γ (Option String))
    (table : CurrencyTable) (e : ResolveError ι γ) : Prop :=
  LeadsNowhere ip geo e ∨
    ∃ country, LeadsTo ip geo country ∧ e = .notFound country ∧ ∀ r ∈ table, r.country ≠ country

/-- A record is found: the first one of the country. -/
def LeadsToRecord (ip : Except ι Address) (geo : Address → Except γ (Option String))
    (table : CurrencyTable) (r : CurrencyRecord) : Prop :=
  ∃ country, LeadsTo ip geo country ∧ table.IsFirstOf country r

/-! ### What answers settle -/

theorem country_of_leadsTo {country : String} (h : LeadsTo ip geo country) :
    (ofAnswers ip geo).country.run = .ok country := by
  obtain ⟨a, rfl, hgeo⟩ := h
  simp [Resolver.country, ofAnswers, hgeo]

theorem country_of_leadsNowhere {e : ResolveError ι γ} (h : LeadsNowhere ip geo e) :
    (ofAnswers ip geo).country.run = .error e := by
  cases h with
  | ipLookup h => simp [Resolver.country, ofAnswers, h]
  | geoLookup h hgeo => simp [Resolver.country, ofAnswers, h, hgeo]
  | noCountry h hgeo => simp [Resolver.country, ofAnswers, h, hgeo]

/-- Answers lead to a country or nowhere. -/
theorem leadsTo_or_leadsNowhere (ip : Except ι Address)
    (geo : Address → Except γ (Option String)) :
    (∃ country, LeadsTo ip geo country) ∨ ∃ e, LeadsNowhere ip geo e := by
  cases ip with
  | error cause => exact .inr ⟨_, .ipLookup rfl⟩
  | ok a =>
      match hgeo : geo a with
      | .error cause => exact .inr ⟨_, .geoLookup rfl hgeo⟩
      | .ok none => exact .inr ⟨_, .noCountry rfl hgeo⟩
      | .ok (some country) => exact .inl ⟨country, a, rfl, hgeo⟩

theorem country_eq_ok_iff {country : String} :
    (ofAnswers ip geo).country.run = .ok country ↔ LeadsTo ip geo country := by
  refine ⟨fun h => ?_, country_of_leadsTo⟩
  obtain ⟨other, hto⟩ | ⟨e, hnowhere⟩ := leadsTo_or_leadsNowhere ip geo
  · obtain rfl : other = country := Except.ok.inj ((country_of_leadsTo hto).symm.trans h)
    exact hto
  · cases (country_of_leadsNowhere hnowhere).symm.trans h

theorem country_eq_error_iff {e : ResolveError ι γ} :
    (ofAnswers ip geo).country.run = .error e ↔ LeadsNowhere ip geo e := by
  refine ⟨fun h => ?_, country_of_leadsNowhere⟩
  obtain ⟨country, hto⟩ | ⟨other, hnowhere⟩ := leadsTo_or_leadsNowhere ip geo
  · cases (country_of_leadsTo hto).symm.trans h
  · obtain rfl : other = e := Except.error.inj ((country_of_leadsNowhere hnowhere).symm.trans h)
    exact hnowhere

theorem record_eq_bind :
    ((ofAnswers ip geo).record table).run =
      (ofAnswers ip geo).country.run.bind (recordOf table) := by
  simp [record]

theorem currency_eq_map :
    ((ofAnswers ip geo).currency table).run =
      ((ofAnswers ip geo).record table).run.map CurrencyRecord.symbol := by
  simp [currency]

theorem recordOf_eq_ok_iff {country : String} {r : CurrencyRecord} :
    (recordOf table country : Except (ResolveError ι γ) CurrencyRecord) = .ok r ↔
      table.IsFirstOf country r := by
  rw [recordOf, ← CurrencyTable.find?_eq_some_iff]
  cases table.find? country <;> simp

theorem recordOf_eq_error_iff {country : String} {e : ResolveError ι γ} :
    recordOf table country = .error e ↔
      e = .notFound country ∧ ∀ r ∈ table, r.country ≠ country := by
  rw [recordOf, ← CurrencyTable.find?_eq_none_iff]
  cases table.find? country <;> simp [eq_comm]

theorem record_eq_ok_iff {r : CurrencyRecord} :
    ((ofAnswers ip geo).record table).run = .ok r ↔ LeadsToRecord ip geo table r := by
  rw [record_eq_bind, Except.bind_eq_ok_iff]
  simp only [country_eq_ok_iff, recordOf_eq_ok_iff, LeadsToRecord]

theorem record_eq_error_iff {e : ResolveError ι γ} :
    ((ofAnswers ip geo).record table).run = .error e ↔ LeadsToNoRecord ip geo table e := by
  rw [record_eq_bind, Except.bind_eq_error_iff]
  simp only [country_eq_ok_iff, country_eq_error_iff, recordOf_eq_error_iff, LeadsToNoRecord]

theorem currency_eq_ok_iff {symbol : String} :
    ((ofAnswers ip geo).currency table).run = .ok symbol ↔
      ∃ r, LeadsToRecord ip geo table r ∧ r.symbol = symbol := by
  rw [currency_eq_map, Except.map_eq_ok_iff]
  simp only [record_eq_ok_iff]

theorem currency_eq_error_iff {e : ResolveError ι γ} :
    ((ofAnswers ip geo).currency table).run = .error e ↔ LeadsToNoRecord ip geo table e := by
  rw [currency_eq_map, Except.map_eq_error_iff, record_eq_error_iff]

section NoRecord

variable {a : Address} {cause : ι} {geoCause : γ} {country : String}

theorem leadsToNoRecord_ipLookup_iff :
    LeadsToNoRecord ip geo table (.ipLookup cause) ↔ ip = .error cause := by
  constructor
  · rintro (hnowhere | ⟨_, -, h, -⟩)
    · cases hnowhere with
      | ipLookup h => exact h
    · cases h
  · intro h
    exact .inl (.ipLookup h)

theorem leadsToNoRecord_geoLookup_iff :
    LeadsToNoRecord ip geo table (.geoLookup a geoCause) ↔
      ip = .ok a ∧ geo a = .error geoCause := by
  constructor
  · rintro (hnowhere | ⟨_, -, h, -⟩)
    · cases hnowhere with
      | geoLookup h hgeo => exact ⟨h, hgeo⟩
    · cases h
  · rintro ⟨h, hgeo⟩
    exact .inl (.geoLookup h hgeo)

theorem leadsToNoRecord_noCountry_iff :
    LeadsToNoRecord ip geo table (.noCountry a) ↔ ip = .ok a ∧ geo a = .ok none := by
  constructor
  · rintro (hnowhere | ⟨_, -, h, -⟩)
    · cases hnowhere with
      | noCountry h hgeo => exact ⟨h, hgeo⟩
    · cases h
  · rintro ⟨h, hgeo⟩
    exact .inl (.noCountry h hgeo)

theorem leadsToNoRecord_notFound_iff :
    LeadsToNoRecord ip geo table (.notFound country) ↔
      LeadsTo ip geo country ∧ ∀ r ∈ table, r.country ≠ country := by
  constructor
  · rintro (hnowhere | ⟨other, hto, h, hnone⟩)
    · cases hnowhere
    · obtain rfl : country = other := ResolveError.notFound.inj h
      exact ⟨hto, hnone⟩
  · rintro ⟨hto, hnone⟩
    exact .inr ⟨country, hto, rfl, hnone⟩

end NoRecord

/-! ### Resolvers with effects -/

/-- In a state a resolver gives answers: the first question leaves the state `after`, and asking to
locate an address then leaves the state `located`. -/
structure GivesAnswers (r : Resolver (StateM σ) ι γ) (s : σ) (ip : Except ι Address)
    (geo : Address → Except γ (Option String)) (after : σ) (located : Address → σ) : Prop where
  publicAddress : r.publicAddress.run s = (ip, after)
  locate : ∀ a, ip = .ok a → (r.locate a).run after = (geo a, located a)

/-- The state in which the answers leave a resolver: an address that is there is located. -/
def finalState (ip : Except ι Address) (after : σ) (located : Address → σ) : σ :=
  (ip.toOption.map located).getD after

theorem finalState_eq (ip : Except ι Address) (after : σ) (located : Address → σ) :
    finalState ip after located = after ∨
      ∃ a, ip = .ok a ∧ finalState ip after located = located a := by
  cases ip with
  | error cause => exact .inl rfl
  | ok a => exact .inr ⟨a, rfl, rfl⟩

namespace GivesAnswers

variable {r : Resolver (StateM σ) ι γ} {s after : σ} {located : Address → σ}

/-- A resolver has the outcome that its answers settle, after these questions and no others. -/
theorem run_country (h : GivesAnswers r s ip geo after located) :
    r.country.run s = ((ofAnswers ip geo).country.run, finalState ip after located) := by
  rw [Resolver.country, run_bind_of_run_eq h.publicAddress]
  cases ip with
  | error cause =>
      rw [country_of_leadsNowhere (.ipLookup rfl)]
      rfl
  | ok a =>
      dsimp only
      rw [run_bind_of_run_eq (h.locate a rfl)]
      match hgeo : geo a with
      | .error cause =>
          rw [country_of_leadsNowhere (.geoLookup rfl hgeo)]
          rfl
      | .ok none =>
          rw [country_of_leadsNowhere (.noCountry rfl hgeo)]
          rfl
      | .ok (some country) =>
          rw [country_of_leadsTo ⟨a, rfl, hgeo⟩]
          rfl

theorem run_record (h : GivesAnswers r s ip geo after located) (table : CurrencyTable) :
    (r.record table).run s =
      (((ofAnswers ip geo).record table).run, finalState ip after located) := by
  rw [Resolver.record, run_bind_of_run_eq h.run_country, record_eq_bind]
  rfl

theorem run_currency (h : GivesAnswers r s ip geo after located) (table : CurrencyTable) :
    (r.currency table).run s =
      (((ofAnswers ip geo).currency table).run, finalState ip after located) := by
  rw [Resolver.currency, run_bind_of_run_eq (h.run_record table), currency_eq_map]
  rfl

end GivesAnswers

/-- A resolver with settled answers notes the addresses that it is asked to locate. -/
theorem givesAnswers_settled (ip : Except ι Address) (geo : Address → Except γ (Option String))
    (asked : List Address) : GivesAnswers (settled ip geo) asked ip geo asked (· :: asked) where
  publicAddress := rfl
  locate _ _ := rfl

/-- The addresses that have been located are the public one, if there is one, and those that were
located before. -/
theorem finalState_asked (ip : Except ι Address) (asked : List Address) :
    finalState ip asked (· :: asked) = ip.toOption.toList ++ asked := by
  cases ip <;> rfl

/-! ### Tables of ranges as locators -/

variable {ranges : GeoTable}

/-- A table of ranges leads to the normal form of the first range that holds the address. -/
theorem leadsTo_lookup_iff {country : String} :
    LeadsTo (γ := γ) ip (fun a => .ok (ranges.lookup a)) country ↔
      ∃ a range, ip = .ok a ∧ ranges.IsFirstHolding a range ∧
        Text.isBlankString range.country = false ∧
          country = (Text.trim range.country).toUpper := by
  simp only [LeadsTo, Except.ok.injEq, GeoTable.lookup_eq_some_iff, exists_and_left]

theorem leadsToRecord_lookup_iff {r : CurrencyRecord} :
    LeadsToRecord (γ := γ) ip (fun a => .ok (ranges.lookup a)) table r ↔
      ∃ a range, ip = .ok a ∧ ranges.IsFirstHolding a range ∧
        Text.isBlankString range.country = false ∧
          table.IsFirstOf (Text.trim range.country).toUpper r := by
  simp only [LeadsToRecord, leadsTo_lookup_iff]
  constructor
  · rintro ⟨_, ⟨a, range, ha, hrange, hblank, rfl⟩, hr⟩
    exact ⟨a, range, ha, hrange, hblank, hr⟩
  · rintro ⟨a, range, ha, hrange, hblank, hr⟩
    exact ⟨_, ⟨a, range, ha, hrange, hblank, rfl⟩, hr⟩

/-- A record that is found by a table of ranges has its country in normal form. -/
theorem trim_country_of_leadsToRecord_lookup {r : CurrencyRecord}
    (h : LeadsToRecord (γ := γ) ip (fun a => .ok (ranges.lookup a)) table r) :
    Text.trim r.country = r.country ∧ ∀ c ∈ r.country.toList, c.isLower = false := by
  obtain ⟨_, range, -, -, hblank, hr⟩ := leadsToRecord_lookup_iff.mp h
  rw [hr.country_eq]
  exact Country.trim_of_normalize? (Country.normalize?_eq_some_iff.mpr ⟨hblank, rfl⟩)

/-- Whatever the answers of the two services are, the locator is asked for the public address, when
there is one, and for nothing else, and the answers settle the outcome of all three questions: the
country, or the first reason why there is none; the first record of just this country, or that there
is no such record; and the symbol of that record. With a table of ranges for a locator the country
is the trimmed one, in upper case, of the first range that holds the address, so no record is found
whose country has blanks around it or an ASCII letter in lower case. -/
theorem settled_outcome (ip : Except ι Address) (geo : Address → Except γ (Option String))
    (table : CurrencyTable) (asked : List Address) :
    (((settled ip geo).country.run asked).2 = ip.toOption.toList ++ asked ∧
      (((settled ip geo).record table).run asked).2 = ip.toOption.toList ++ asked ∧
      (((settled ip geo).currency table).run asked).2 = ip.toOption.toList ++ asked) ∧
    ((∀ e, ((settled ip geo).country.run asked).1 = .error e ↔ LeadsNowhere ip geo e) ∧
      ∀ country, ((settled ip geo).country.run asked).1 = .ok country ↔ LeadsTo ip geo country) ∧
    ((∀ e, (((settled ip geo).record table).run asked).1 = .error e ↔
        LeadsToNoRecord ip geo table e) ∧
      ∀ r, (((settled ip geo).record table).run asked).1 = .ok r ↔
        LeadsToRecord ip geo table r) ∧
    ((∀ e, (((settled ip geo).currency table).run asked).1 = .error e ↔
        LeadsToNoRecord ip geo table e) ∧
      ∀ symbol, (((settled ip geo).currency table).run asked).1 = .ok symbol ↔
        ∃ r, LeadsToRecord ip geo table r ∧ r.symbol = symbol) ∧
    ∀ ranges : GeoTable,
      let byRanges : Resolver (StateM (List Address)) ι γ :=
        settled ip fun a => .ok (ranges.lookup a)
      (∀ symbol, ((byRanges.currency table).run asked).1 = .ok symbol ↔
        ∃ a range r, ip = .ok a ∧ ranges.IsFirstHolding a range ∧
          Text.isBlankString range.country = false ∧
          table.IsFirstOf (Text.trim range.country).toUpper r ∧ r.symbol = symbol) ∧
      ∀ r, ((byRanges.record table).run asked).1 = .ok r →
        Text.trim r.country = r.country ∧ ∀ c ∈ r.country.toList, c.isLower = false := by
  have hsettled := givesAnswers_settled ip geo asked
  rw [hsettled.run_country, hsettled.run_record, hsettled.run_currency, finalState_asked]
  refine ⟨⟨rfl, rfl, rfl⟩, ⟨fun _ => country_eq_error_iff, fun _ => country_eq_ok_iff⟩,
    ⟨fun _ => record_eq_error_iff, fun _ => record_eq_ok_iff⟩,
    ⟨fun _ => currency_eq_error_iff, fun _ => currency_eq_ok_iff⟩, ?_⟩
  intro ranges byRanges
  have hranges : GivesAnswers byRanges asked ip (fun a => .ok (ranges.lookup a)) asked
      (· :: asked) := givesAnswers_settled ip _ asked
  rw [hranges.run_currency, hranges.run_record]
  constructor
  · intro symbol
    show ((ofAnswers ip _).currency table).run = .ok symbol ↔ _
    rw [currency_eq_ok_iff]
    simp only [leadsToRecord_lookup_iff]
    constructor
    · rintro ⟨r, ⟨a, range, ha, hrange, hblank, hr⟩, hsymbol⟩
      exact ⟨a, range, r, ha, hrange, hblank, hr, hsymbol⟩
    · rintro ⟨a, range, r, ha, hrange, hblank, hr, hsymbol⟩
      exact ⟨r, ⟨a, range, ha, hrange, hblank, hr⟩, hsymbol⟩
  · intro r hr
    exact trim_country_of_leadsToRecord_lookup (record_eq_ok_iff.mp hr)

end Resolver

end Transcription
