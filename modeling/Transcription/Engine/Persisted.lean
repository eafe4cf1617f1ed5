import Transcription.Engine
import Transcription.Json.Reader
import Transcription.Json.Record
import Transcription.Json.Writer

/-!
# How transcriptions are kept

Policies and sides are choices, written by name. Spans, hits and reports are records. The numbers
of a record are unsigned and have 64 bits; `IsStorable` says that the numbers of a value are in
that range.
-/

namespace Transcription

open Json

namespace QuotePolicy

/-- The name of a policy. -/
def name : QuotePolicy → String
  | .escapeAware => "escape_aware"
  | .naive => "naive"

/-- The policy with a name. -/
def ofName? : String → Option QuotePolicy
  | "escape_aware" => some .escapeAware
  | "naive" => some .naive
  | _ => none

@[simp] theorem ofName?_name (p : QuotePolicy) : ofName? p.name = some p := by
  cases p <;> rfl

theorem ofName?_eq_some_iff {n : String} {p : QuotePolicy} : ofName? n = some p ↔ n = p.name := by
  constructor
  · intro h
    unfold ofName? at h
    split at h <;> cases h <;> rfl
  · rintro rfl
    exact ofName?_name p

instance : Persisted QuotePolicy where
  toJson p := ofString p.name
  ofJson? j := (case? j).bind ofName?

theorem ofJson?_eq_some_iff {j : Json} {p : QuotePolicy} :
    ofJson? j = some p ↔ j = ofString p.name ∨ j = .object [(some p.name, .null)] := by
  show (case? j).bind ofName? = some p ↔ _
  simp only [Option.bind_eq_some_iff, ofName?_eq_some_iff, exists_eq_right, case?_eq_some_iff]

end QuotePolicy

namespace Placement

/-- The name of a side. -/
def name : Placement → String
  | .leftside => "leftside"
  | .rightside => "rightside"

/-- The side with a name. -/
def ofName? : String → Option Placement
  | "leftside" => some .leftside
  | "rightside" => some .rightside
  | _ => none

@[simp] theorem ofName?_name (p : Placement) : ofName? p.name = some p := by
  cases p <;> rfl

instance : Persisted Placement where
  toJson p := ofString p.name
  ofJson? j := (case? j).bind ofName?

end Placement

namespace Span

/-- The offsets have 64 bits. -/
def IsStorable (s : Span) : Prop :=
  s.start ≤ Numeral.maxNatural ∧ s.stop ≤ Numeral.maxNatural

instance : Persisted Span where
  toJson s := ofMembers [("start", ofNat s.start), ("end", ofNat s.stop)]
  ofJson? j := do
    let [some start, some stop] ← fields? ["start", "end"] j | none
    some ⟨← start.natural?, ← stop.natural?⟩

end Span

namespace RuleHit

/-- The count has 64 bits. -/
def IsStorable (h : RuleHit) : Prop :=
  h.count ≤ Numeral.maxNatural

instance : Persisted RuleHit where
  toJson h := ofMembers
    [("keyword", ofString h.keyword), ("replacement", ofString h.replacement),
     ("count", ofNat h.count)]
  ofJson? j := do
    let [some keyword, some replacement, some count] ←
      fields? ["keyword", "replacement", "count"] j | none
    some ⟨← keyword.string?, ← replacement.string?, ← count.natural?⟩

end RuleHit

namespace Report

/-- Every number has 64 bits. -/
def IsStorable (r : Report) : Prop :=
  (∀ h ∈ r.applied, h.IsStorable) ∧ r.currencyPlaceholders ≤ Numeral.maxNatural ∧
    r.elapsedMicros ≤ Numeral.maxNatural

instance : Persisted Report where
  toJson r := ofMembers
    [("text", ofString r.text), ("changed", .bool r.changed),
     ("applied", .array (r.applied.map toJson)),
     ("currency_placeholders", ofNat r.currencyPlaceholders),
     ("elapsed_us", ofNat r.elapsedMicros)]
  ofJson? j := do
    let [some text, some changed, some applied, some placeholders, some elapsed] ←
      fields? ["text", "changed", "applied", "currency_placeholders", "elapsed_us"] j | none
    some ⟨← text.string?, ← changed.bool?, ← list? ofJson? applied, ← placeholders.natural?,
      ← elapsed.natural?⟩

end Report

end Transcription
