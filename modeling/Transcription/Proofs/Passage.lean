import Transcription.Passage
import Transcription.Proofs.AtOnce
import Transcription.Proofs.Literal.Unescaped

/-!
# Transcribing a passage step by step

The rules of the book taken on a passage one after another, and then the currency, give the text of
the transcription under the passage's policy. The engine sets the outcome of a rule without a hit
aside and does not begin on an empty source; a passage does neither, and it makes no difference.

A policy may be chosen anew before every step. In a source without an escaped quote this does not
matter either: no rule escapes a quote, so every step meets a text that it changes in the same way
under both policies.
-/

namespace Transcription.Passage

open Literal

/-- Replace the keywords of rules, one rule after another. -/
def replaceRules (p : Passage) (rules : List Rule) : Passage :=
  rules.foldl (fun q r => q.replaceWord r.keyword r.replacement) p

@[simp] theorem replaceRules_nil (p : Passage) : p.replaceRules [] = p := rfl

@[simp] theorem replaceRules_cons (p : Passage) (r : Rule) (rules : List Rule) :
    p.replaceRules (r :: rules) =
      (p.replaceWord r.keyword r.replacement).replaceRules rules := rfl

/-- Replace the keywords of rules, choosing a policy before each of them. -/
def replaceRulesUnder (p : Passage) (steps : List (QuotePolicy × Rule)) : Passage :=
  steps.foldl (fun q s => (q.withPolicy s.1).replaceWord s.2.keyword s.2.replacement) p

@[simp] theorem replaceRulesUnder_nil (p : Passage) : p.replaceRulesUnder [] = p := rfl

@[simp] theorem replaceRulesUnder_cons (p : Passage) (policy : QuotePolicy) (r : Rule)
    (steps : List (QuotePolicy × Rule)) :
    p.replaceRulesUnder ((policy, r) :: steps) =
      ((p.withPolicy policy).replaceWord r.keyword r.replacement).replaceRulesUnder steps := rfl

@[simp] theorem text_ofString (text : String) : (ofString text).text = text := rfl

@[simp] theorem text_replaceWord (p : Passage) (k r : String) :
    (p.replaceWord k r).text = Transcription.replaceWord p.policy p.text k r := rfl

@[simp] theorem text_placeCurrency (p : Passage) (symbol : String) :
    (p.placeCurrency symbol).text = Transcription.placeCurrency p.text symbol := rfl

/-- Rules on a passage are rules in order under its policy. -/
theorem text_replaceRules (p : Passage) (rules : List Rule) :
    (p.replaceRules rules).text = replaceInOrder p.policy rules p.text := by
  induction rules generalizing p with
  | nil => rfl
  | cons r rules ih =>
      rw [replaceRules_cons, ih, policy_replaceWord, text_replaceWord, replaceInOrder_cons]

/-- Without an escaped quote a plain rule does the same under both policies. -/
theorem replaceWord_eq_replaceWord_of_policy {r : Rule} (hr : r.isPlain = true) {text : String}
    (hquotes : MeetsNoEscapedQuote .start text.toList) (p q : QuotePolicy) :
    Transcription.replaceWord p text r.keyword r.replacement =
      Transcription.replaceWord q text r.keyword r.replacement := by
  refine String.toList_inj.mp ?_
  rw [toList_replaceWord_rule hr, toList_replaceWord_rule hr,
    reword_eq_reword_of_policy hquotes p q]

/-- A plain rule escapes no quote. -/
theorem meetsNoEscapedQuote_replaceWord {r : Rule} (hr : r.isPlain = true) {text : String}
    (hquotes : MeetsNoEscapedQuote .start text.toList) (policy : QuotePolicy) :
    MeetsNoEscapedQuote .start
      (Transcription.replaceWord policy text r.keyword r.replacement).toList := by
  rw [replaceWord_eq_replaceWord_of_policy hr hquotes policy .escapeAware,
    toList_replaceWord_rule hr]
  exact meetsNoEscapedQuote_reword (Rule.isRewording_spelling hr) hquotes

/-- Without an escaped quote plain rules may be taken under any policies. -/
theorem text_replaceRulesUnder (policy : QuotePolicy) {p : Passage}
    {steps : List (QuotePolicy × Rule)} (hplain : ∀ s ∈ steps, s.2.isPlain = true)
    (hquotes : MeetsNoEscapedQuote .start p.text.toList) :
    (p.replaceRulesUnder steps).text = replaceInOrder policy (steps.map Prod.snd) p.text := by
  induction steps generalizing p with
  | nil => rfl
  | cons s steps ih =>
      obtain ⟨chosen, r⟩ := s
      have hr : r.isPlain = true := hplain (chosen, r) (by simp)
      have htail : ∀ s ∈ steps, s.2.isPlain = true := fun s hs =>
        hplain s (List.mem_cons_of_mem _ hs)
      have htext : ((p.withPolicy chosen).replaceWord r.keyword r.replacement).text =
          Transcription.replaceWord policy p.text r.keyword r.replacement := by
        rw [text_replaceWord, policy_withPolicy, text_withPolicy]
        exact replaceWord_eq_replaceWord_of_policy hr hquotes chosen policy
      have hnext : MeetsNoEscapedQuote .start
          ((p.withPolicy chosen).replaceWord r.keyword r.replacement).text.toList := by
        rw [htext]
        exact meetsNoEscapedQuote_replaceWord hr hquotes policy
      rw [replaceRulesUnder_cons, ih htail hnext, htext, List.map_cons, replaceInOrder_cons]

/-- The steps of a transcription, taken on a passage one at a time, give the text that the engine
gives and that its report holds; and in a source without an escaped quote they do so whatever
policies are chosen on the way. -/
theorem text_placeCurrency_replaceRules (policy : QuotePolicy) (code currency : String) :
    ((((ofString code).withPolicy policy).replaceRules rulebook).placeCurrency currency).text =
        transcribe policy code currency ∧
      (transcribeDetailed policy code currency).text = transcribe policy code currency ∧
      (HasNoEscapedQuote code → ∀ (steps : List (QuotePolicy × Rule)) (last : QuotePolicy),
        steps.map Prod.snd = rulebook →
        ((((ofString code).withPolicy policy).replaceRulesUnder steps).withPolicy last
            |>.placeCurrency currency).text = transcribe policy code currency) := by
  refine ⟨?_, rfl, ?_⟩
  · rw [text_placeCurrency, text_replaceRules, transcribe_eq_placeCurrency_replaceInOrder]
    rfl
  · intro hquotes steps last hsteps
    have hplain : ∀ s ∈ steps, s.2.isPlain = true := by
      intro s hs
      refine Rulebook.isPlain_of_mem s.2 ?_
      rw [← hsteps]
      exact List.mem_map_of_mem hs
    rw [text_placeCurrency, text_withPolicy, text_replaceRulesUnder policy hplain hquotes.meets,
      hsteps, transcribe_eq_placeCurrency_replaceInOrder]
    rfl

/-- The rules of the book under policies that alternate. -/
def alternatingSteps : List (QuotePolicy × Rule) :=
  rulebook.zipIdx.map fun r => (if r.2 % 2 = 0 then .naive else .escapeAware, r.1)

/-- A pair of backslashes before a quote escapes nothing, so the policies may alternate. -/
theorem text_placeCurrency_replaceRules_alternating :
    HasNoEscapedQuote "catch \\\\\"use\" use" ∧ alternatingSteps.map Prod.snd = rulebook ∧
      (((((ofString "catch \\\\\"use\" use").withPolicy .naive).replaceRulesUnder
          alternatingSteps).withPolicy .naive).placeCurrency "€").text =
        transcribe .naive "catch \\\\\"use\" use" "€" := by
  have hquotes : HasNoEscapedQuote "catch \\\\\"use\" use" := by decide
  have hsteps : alternatingSteps.map Prod.snd = rulebook := by decide
  exact ⟨hquotes, hsteps,
    (text_placeCurrency_replaceRules .naive _ "€").2.2 hquotes alternatingSteps .naive hsteps⟩

end Transcription.Passage
