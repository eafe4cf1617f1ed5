import Transcription.Proofs.Rulebook.Spelling

/-!
# All rules at once

A text can be rewritten by one look at each of its pieces: a word that no literal of the text
protects and that has a spelling gets it, and everything else is copied. Words and literals are
those of the text as it is given.

Settled plain rules, applied one after another, do the same. Each rule looks for words and literals
in what the rules before it have left, but none of them finds a word, a border between words or an
open literal that was not there at the beginning.
-/

namespace Transcription

open Text Literal

/-- Write the spelling that is on record for each unprotected word, reading the text once. -/
def rewriteAtOnce (policy : QuotePolicy) (spelling? : String → Option String) (code : String) :
    String :=
  String.ofList <| (markedPieces policy code).flatMap <| respelled fun w =>
    ((spelling? (String.ofList w)).map String.toList).getD w

theorem toList_rewriteAtOnce (policy : QuotePolicy) (spelling? : String → Option String)
    (code : String) :
    (rewriteAtOnce policy spelling? code).toList =
      reword policy (fun w => ((spelling? (String.ofList w)).map String.toList).getD w) .start
        code.toList := by
  rw [rewriteAtOnce, String.toList_ofList, markedPieces_eq_markFrom, reword]

/-- Settled plain rules in order do what one look at each word does. -/
theorem replaceInOrder_eq_rewriteAtOnce (policy : QuotePolicy) {rules : List Rule}
    (hplain : ∀ r ∈ rules, r.isPlain = true) (hsettled : Rulebook.IsSettled rules)
    (code : String) :
    replaceInOrder policy rules code =
      rewriteAtOnce policy (Rulebook.spellingOf? rules) code := by
  refine String.toList_inj.mp ?_
  rw [Rulebook.toList_replaceInOrder policy hplain, toList_rewriteAtOnce]
  exact reword_congr fun w _ => Rulebook.spelling_of_isSettled hsettled w

/-- The text of a transcription: the rules in order, and then the currency. -/
theorem transcribe_eq_placeCurrency_replaceInOrder (policy : QuotePolicy)
    (code currency : String) :
    transcribe policy code currency =
      placeCurrency (replaceInOrder policy rulebook code) currency := by
  rw [transcribe, transcribeDetailed]
  by_cases h : code.isEmpty
  · -- an empty source is returned before any rule is tried, and no rule would change it
    have hcode : code = "" := String.isEmpty_iff.mp h
    have hrules : replaceInOrder policy rulebook "" = "" := by
      refine String.toList_inj.mp ?_
      rw [Rulebook.toList_replaceInOrder policy Rulebook.isPlain_of_mem, String.toList_empty,
        reword_nil]
    have hplace : placeCurrency "" currency = "" := by
      refine String.toList_inj.mp ?_
      rw [toList_placeCurrency, String.toList_empty, Placement.rewrite]
      split <;> simp
    rw [if_pos h, hcode, hrules, hplace]
  · rw [if_neg h]
    change placeCurrency (Engine.applyRules policy rulebook code).text currency = _
    rw [Engine.text_applyRules]
    rfl

/-- A transcription rewrites every unprotected keyword of the source once, by the book, and places
the currency in the result. -/
theorem transcribe_eq_placeCurrency_rewriteAtOnce (policy : QuotePolicy)
    (code currency : String) :
    transcribe policy code currency =
      placeCurrency (rewriteAtOnce policy Rulebook.lookup code) currency := by
  rw [transcribe_eq_placeCurrency_replaceInOrder, replaceInOrder_eq_rewriteAtOnce policy
    Rulebook.isPlain_of_mem Rulebook.isSettled_rulebook]
  rfl

-- a protected word, an escaped quote and a keyword that another rule writes
example : rewriteAtOnce .escapeAware Rulebook.lookup "revive \"use \\\" use\" catch\\use" =
    "catch \"use \\\" use\" let\\println" := by
  decide

end Transcription
