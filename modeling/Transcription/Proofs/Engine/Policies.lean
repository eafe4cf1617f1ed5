import Transcription.Proofs.AtOnce
import Transcription.Proofs.Engine.Hits
import Transcription.Proofs.Literal.Policies

/-!
# Transcriptions under either policy

A transcription asks its policy which pieces of the source are protected, and nothing else. All that
its rules write and count is read off the pieces of the source with these marks, though each rule
scans the text that it meets anew. Two policies that find the same literals in a source therefore
give the same report on it, whatever is written into it on the way.
-/

namespace Transcription

open Literal

/-- The draft that the book leaves is read off the source. -/
theorem Engine.applyRules_rulebook (policy : QuotePolicy) (code : String) :
    Engine.applyRules policy rulebook code =
      ⟨rewriteAtOnce policy Rulebook.lookup code,
        rulebook.filterMap fun r => r.hit? policy code⟩ := by
  have hplain : ∀ r ∈ rulebook, r.isPlain = true := Rulebook.isPlain_of_mem
  rw [Engine.applyRules, Engine.foldl_applyRule policy hplain Rulebook.isSettled_rulebook,
    replaceInOrder_eq_rewriteAtOnce policy hplain Rulebook.isSettled_rulebook]
  rfl

/-- Policies under which a source has the same literals give the same report on it. -/
theorem transcribeDetailed_eq_of_scan_eq {p q : QuotePolicy} {code : String}
    (h : scan p code = scan q code) (currency : String) :
    transcribeDetailed p code currency = transcribeDetailed q code currency := by
  have hpieces : markedPieces p code = markedPieces q code := by
    rw [markedPieces, markedPieces, h]
  have hhit : ∀ r : Rule, r.hit? p code = r.hit? q code := by
    intro r
    rw [Rule.hit?, Rule.hit?, freeWords, freeWords, hpieces]
  have hdraft : Engine.applyRules p rulebook code = Engine.applyRules q rulebook code := by
    rw [Engine.applyRules_rulebook, Engine.applyRules_rulebook, rewriteAtOnce, rewriteAtOnce,
      hpieces, List.filterMap_congr fun r _ => hhit r]
  rw [transcribeDetailed, transcribeDetailed, hdraft]

/-- The policies find the same literals in a text just when none of its double quotes stands behind
an odd run of backslashes, or when the only one that does is its last character and the number of
quotes before it is odd. Where they agree on the literals, they agree on every transcription. -/
theorem policies_agree_iff (text : String) :
    (scan .naive text = scan .escapeAware text ↔
      HasNoEscapedQuote text ∨ HasLastQuoteEscaped text) ∧
    (scan .naive text = scan .escapeAware text → ∀ currency,
      transcribeDetailed .naive text currency = transcribeDetailed .escapeAware text currency) := by
  constructor
  · exact scan_naive_eq_iff text
  · intro hagree currency
    exact transcribeDetailed_eq_of_scan_eq hagree currency

/-- One policy ends the literal with the escaped quote, the other with the text. -/
theorem policies_agree_at_end :
    let text := "catch \"use \\\""
    ¬ HasNoEscapedQuote text ∧ HasLastQuoteEscaped text ∧
      scan .naive text = scan .escapeAware text ∧
      transcribeDetailed .naive text "€" = transcribeDetailed .escapeAware text "€" := by
  have hescaped : ¬ HasNoEscapedQuote "catch \"use \\\"" := by decide
  have hlast : HasLastQuoteEscaped "catch \"use \\\"" :=
    ⟨"catch \"use \\".toList, rfl, by decide, by decide, by decide⟩
  have hagree := (policies_agree_iff "catch \"use \\\"").1.mpr (.inr hlast)
  exact ⟨hescaped, hlast, hagree, (policies_agree_iff "catch \"use \\\"").2 hagree "€"⟩

end Transcription
