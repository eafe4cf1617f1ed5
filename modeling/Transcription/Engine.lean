import Transcription.Placement
import Transcription.Replacement
import Transcription.Rulebook

/-!
# The transcription engine

A transcription applies the rules of the book one after another, each to the text that the one
before it has left, and then places the currency. The report lists the rules that replaced
something, in the order of the book and with the number of replacements, and says whether the
text that comes out differs from the one that went in.
-/

namespace Transcription

/-- A rule that was applied, and how often. -/
structure RuleHit where
  keyword : String
  replacement : String
  count : Nat
  deriving Repr, DecidableEq

/-- What a transcription has done. -/
structure Report where
  text : String
  changed : Bool
  applied : List RuleHit
  currencyPlaceholders : Nat
  elapsedMicros : Nat
  deriving Repr, DecidableEq

namespace Engine

/-- A text on its way through the rules, with the hits so far. -/
structure Draft where
  text : String
  hits : List RuleHit
  deriving Repr, DecidableEq

/-- Apply one rule. A rule that replaces nothing leaves no hit. -/
def applyRule (policy : QuotePolicy) (d : Draft) (r : Rule) : Draft :=
  let (text, count) := replaceWordCounted policy d.text r.keyword r.replacement
  if count = 0 then d
  else ⟨text, d.hits ++ [⟨r.keyword, r.replacement, count⟩]⟩

/-- Apply rules in order. -/
def applyRules (policy : QuotePolicy) (rules : List Rule) (code : String) : Draft :=
  rules.foldl (applyRule policy) ⟨code, []⟩

@[simp] theorem applyRules_nil (policy : QuotePolicy) (code : String) :
    applyRules policy [] code = ⟨code, []⟩ := rfl

/-- A rule's text is that of the replacement, whether it has a hit or not. -/
theorem text_applyRule (policy : QuotePolicy) (d : Draft) (r : Rule) :
    (applyRule policy d r).text = replaceWord policy d.text r.keyword r.replacement := by
  simp only [applyRule, replaceWord]
  split
  · next h =>
    simp only [replaceWordCounted] at h ⊢
    rw [Replacement.text_rewrite_of_count_eq_zero h, String.ofList_toList]
  · rfl

/-- The text after rules is that of the replacements in order. -/
theorem text_applyRules (policy : QuotePolicy) (rules : List Rule) (code : String) :
    (applyRules policy rules code).text =
      rules.foldl (fun t r => replaceWord policy t r.keyword r.replacement) code := by
  suffices h : ∀ d : Draft, (rules.foldl (applyRule policy) d).text =
      rules.foldl (fun t r => replaceWord policy t r.keyword r.replacement) d.text from h _
  induction rules with
  | nil => intro d; rfl
  | cons r rs ih =>
    intro d
    rw [List.foldl_cons, List.foldl_cons, ih, text_applyRule]

end Engine

/-- Transcribe a source text and report what was done. An empty source is left alone. -/
def transcribeDetailed (policy : QuotePolicy) (code currency : String) : Report :=
  if code.isEmpty then ⟨"", false, [], 0, 0⟩
  else
    let draft := Engine.applyRules policy rulebook code
    let (text, placeholders) := placeCurrencyCounted draft.text currency
    ⟨text, text != code, draft.hits, placeholders, 0⟩

/-- Transcribe a source text. -/
def transcribe (policy : QuotePolicy) (code currency : String) : String :=
  (transcribeDetailed policy code currency).text

end Transcription
