import Transcription.Engine
import Transcription.Proofs.Placement
import Transcription.Proofs.Text.Measure

/-!
# Whether a transcription changes its source

A report calls a text changed when it is not the source any more. Rules and placement could in
principle cancel out, since a placement deletes a symbol that the caller has chosen. They never do.
Characters can be given weights such that every keyword of the book weighs more than what is written
for it, and an annotated placeholder no less than the canonical one. A rule that replaces something
then makes the text lighter, and nothing makes it heavier again.
-/

namespace Transcription

open Text

/-- Weights under which the book makes texts lighter. An opening brace counts, so that every
placeholder weighs something. -/
def bookWeight (c : Char) : Nat :=
  if c ∈ ['a', 'm', 'v'] then 2
  else if c ∈ ['d', 'k', 's', 'u', '\x7b'] then 1
  else 0

theorem bookWeight_le (c : Char) : bookWeight c ≤ 2 := by
  rw [bookWeight]
  split
  · exact Nat.le_refl 2
  · split <;> omega

/-- The weight of a text. -/
def bulk (text : List Char) : Nat := weigh bookWeight text

theorem isMeasure_bulk : IsMeasure bulk := isMeasure_weigh bookWeight

/-- A rule whose replacement weighs less than its keyword. -/
def Rule.IsLightening (r : Rule) : Prop :=
  bulk r.replacement.toList < bulk r.keyword.toList

instance (r : Rule) : Decidable r.IsLightening :=
  inferInstanceAs (Decidable (_ < _))

/-- Every rule of the book makes a text lighter. -/
theorem Rulebook.isLightening_of_mem : ∀ r ∈ rulebook, r.IsLightening := by
  decide

namespace Engine

variable (policy : QuotePolicy)

/-- A lightening rule leaves the draft alone, or it leaves a hit and a lighter text. -/
theorem applyRule_cases {r : Rule} (h : r.IsLightening) (d : Draft) :
    applyRule policy d r = d ∨
      (applyRule policy d r).hits ≠ [] ∧
        bulk (applyRule policy d r).text.toList < bulk d.text.toList := by
  have htext := text_applyRule policy d r
  by_cases hcount : (replaceWordCounted policy d.text r.keyword r.replacement).2 = 0
  · left
    simp only [applyRule, hcount, if_true]
  · right
    refine ⟨?_, ?_⟩
    · simp only [applyRule, hcount, if_false]
      simp
    · rw [htext, toList_replaceWord, Replacement.rewrite]
      exact Substitution.measure_apply_lt
        (s := Replacement.ofKeyword policy r.keyword.toList r.replacement.toList)
        isMeasure_bulk h (Nat.pos_of_ne_zero hcount)

/-- Lightening rules in order leave the draft alone, or they leave hits and a lighter text. -/
theorem foldl_applyRule_cases {rules : List Rule} (h : ∀ r ∈ rules, r.IsLightening) (d : Draft) :
    rules.foldl (applyRule policy) d = d ∨
      (rules.foldl (applyRule policy) d).hits ≠ [] ∧
        bulk (rules.foldl (applyRule policy) d).text.toList < bulk d.text.toList := by
  induction rules generalizing d with
  | nil => exact .inl rfl
  | cons r rules ih =>
      have hrules := ih fun a ha => h a (List.mem_cons_of_mem r ha)
      rw [List.foldl_cons]
      rcases applyRule_cases policy (h r (by simp)) d with hkept | ⟨hhits, hlighter⟩
      · rw [hkept]
        exact hrules d
      · rcases hrules (applyRule policy d r) with hkept | ⟨hhits', hlighter'⟩
        · rw [hkept]
          exact .inr ⟨hhits, hlighter⟩
        · exact .inr ⟨hhits', Nat.lt_trans hlighter' hlighter⟩

theorem applyRules_cases {rules : List Rule} (h : ∀ r ∈ rules, r.IsLightening) (code : String) :
    applyRules policy rules code = ⟨code, []⟩ ∨
      (applyRules policy rules code).hits ≠ [] ∧
        bulk (applyRules policy rules code).text.toList < bulk code.toList :=
  foldl_applyRule_cases policy h ⟨code, []⟩

theorem bulk_applyRules_le {rules : List Rule} (h : ∀ r ∈ rules, r.IsLightening) (code : String) :
    bulk (applyRules policy rules code).text.toList ≤ bulk code.toList := by
  rcases applyRules_cases policy h code with hkept | ⟨-, hlighter⟩
  · exact Nat.le_of_eq (congrArg (fun d : Draft => bulk d.text.toList) hkept)
  · exact Nat.le_of_lt hlighter

end Engine

namespace Placement

/-- The annotated placeholder of a symbol is the canonical one for the dollar sign alone. -/
theorem annotated_eq_canonical_iff {symbol : String} :
    annotated symbol = canonical ↔ symbol = "$" := by
  constructor
  · intro h
    have hchars := congrArg String.toList h
    rcases toList_annotated symbol with hs | hs
    · -- the canonical placeholder does not begin with the marker
      rw [hs, toList_marker, toList_canonical] at hchars
      exact absurd (List.cons.inj hchars).1 (by decide)
    · rw [hs, toList_marker, toList_canonical] at hchars
      have hdollar : ['$', '\x7b', '\x7d'] = "$".toList ++ ['\x7b', '\x7d'] := rfl
      rw [hdollar] at hchars
      exact String.toList_inj.mp (List.append_cancel_right hchars)
  · rintro rfl
    decide

/-- A placement gives a text back when it finds no placeholder, or when the symbol is the one that
stays. -/
theorem text_rewrite_eq_iff (symbol : String) (text : List Char) :
    (rewrite symbol text).text = text ↔ (rewrite symbol text).count = 0 ∨ symbol = "$" := by
  rw [rewrite]
  by_cases hblank : isBlankString symbol = true
  · simp [hblank]
  · rw [if_neg hblank, Substitution.text_apply_eq_iff, replacement_ofPattern, target_ofPattern,
      String.toList_inj, eq_comm (a := canonical), annotated_eq_canonical_iff]

theorem bulk_canonical_le (symbol : String) :
    bulk canonical.toList ≤ bulk (annotated symbol).toList := by
  have hmarker : bulk marker.toList = bulk canonical.toList := by decide
  rcases toList_annotated symbol with hs | hs
  · rw [hs, isMeasure_bulk.append]
    omega
  · rw [hs, isMeasure_bulk.append]
    omega

/-- A placement makes no text heavier. -/
theorem bulk_rewrite_le (symbol : String) (text : List Char) :
    bulk (rewrite symbol text).text ≤ bulk text := by
  have hle : bulk (ofPattern (annotated symbol).toList).replacement ≤
      bulk (ofPattern (annotated symbol).toList).target := by
    rw [replacement_ofPattern, target_ofPattern]
    exact bulk_canonical_le symbol
  rw [rewrite]
  by_cases hblank : isBlankString symbol = true
  · simp [hblank]
  · rw [if_neg hblank]
    exact Substitution.measure_apply_le isMeasure_bulk hle () text

end Placement

/-- Placing a currency in a lighter text than the source does not give the source back. -/
theorem placeCurrency_ne_of_bulk_lt {text code : String} (h : bulk text.toList < bulk code.toList)
    (currency : String) : placeCurrency text currency ≠ code := by
  rintro rfl
  have hplaced := Placement.bulk_rewrite_le currency text.toList
  rw [toList_placeCurrency] at h
  omega

/-- Placing a currency in a text changes it when a placeholder of another symbol than the dollar
sign stands in it. -/
theorem placeCurrency_ne_iff (text currency : String) :
    placeCurrency text currency ≠ text ↔
      0 < (placeCurrencyCounted text currency).2 ∧ currency ≠ "$" := by
  rw [Ne, ← String.toList_inj, toList_placeCurrency, Placement.text_rewrite_eq_iff, not_or,
    Nat.pos_iff_ne_zero]
  exact Iff.rfl

/-- What a report on a source that is not empty says, by the draft that the rules leave. -/
theorem transcribeDetailed_of_ne_empty {policy : QuotePolicy} {code : String} (h : code ≠ "")
    (currency : String) :
    let draft := Engine.applyRules policy rulebook code
    transcribeDetailed policy code currency = ⟨placeCurrency draft.text currency,
      placeCurrency draft.text currency != code, draft.hits,
      (placeCurrencyCounted draft.text currency).2, 0⟩ := by
  have hempty : ¬ code.isEmpty = true := fun hempty => h (String.isEmpty_iff.mp hempty)
  rw [transcribeDetailed, if_neg hempty]
  rfl

/-- A report calls its text changed when the text is not the source any more. -/
theorem changed_iff_text_ne (policy : QuotePolicy) (code currency : String) :
    let report := transcribeDetailed policy code currency
    report.changed = true ↔ report.text ≠ code := by
  by_cases hempty : code = ""
  · subst hempty
    simp [transcribeDetailed]
  · rw [transcribeDetailed_of_ne_empty hempty]
    exact bne_iff_ne

/-- A report calls its text changed just when the text is not the source, and this is so just when a
rule was applied or a placeholder of another symbol than the dollar sign was rewritten. No symbol
makes the placement undo what the rules have done. -/
theorem changed_iff_applied_or_placed (policy : QuotePolicy) (code currency : String) :
    let report := transcribeDetailed policy code currency
    (report.changed = true ↔ report.text ≠ code) ∧
    (report.changed = true ↔
      report.applied ≠ [] ∨ 0 < report.currencyPlaceholders ∧ currency ≠ "$") := by
  refine ⟨changed_iff_text_ne policy code currency,
    (changed_iff_text_ne policy code currency).trans ?_⟩
  by_cases hempty : code = ""
  · subst hempty
    simp [transcribeDetailed]
  · rw [transcribeDetailed_of_ne_empty hempty]
    dsimp only
    rcases Engine.applyRules_cases policy Rulebook.isLightening_of_mem code
      with hkept | ⟨hhits, hlighter⟩
    · -- no rule found its keyword, so the placement alone decides
      rw [hkept, placeCurrency_ne_iff]
      simp
    · have hne := placeCurrency_ne_of_bulk_lt hlighter currency
      exact ⟨fun _ => .inl hhits, fun _ => hne⟩

end Transcription
