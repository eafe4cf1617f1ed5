import Transcription.Proofs.AtOnce
import Transcription.Proofs.Engine.Hits

/-!
# Transcribing a concatenation

A transcription without a currency reads its source from left to right and never revises what it
has written: when no word runs across a border in the source, the text on the left is transcribed
to the same beginning whatever stands on the right. The right side can depend on the left one
through the state of the scanner alone, so behind a closed text it is transcribed on its own, and
the hits of the two sides add up.
-/

namespace Transcription

open Text Literal

/-- Without a currency a transcription rewords the source by the book. -/
theorem toList_transcribe_empty (policy : QuotePolicy) (code : String) :
    (transcribe policy code "").toList =
      reword policy (Rulebook.spelling rulebook) .start code.toList := by
  rw [transcribe_eq_placeCurrency_replaceInOrder, placeCurrency_of_isBlankString (by decide),
    Rulebook.toList_replaceInOrder policy Rulebook.isPlain_of_mem]

/-- Behind a closed text the unprotected words are those of the text on its own. -/
theorem freeWords_append {policy : QuotePolicy} {a b : String}
    (h : areParted a.toList b.toList = true) (hclosed : IsClosed policy a) :
    freeWords policy (a ++ b) = freeWords policy a ++ freeWords policy b := by
  rw [freeWords_eq, freeWords_eq, freeWords_eq, String.toList_append, freeWordsFrom_append h,
    hclosed.run_eq, List.map_append]

/-- A transcription without a currency is causal, and behind a closed text it starts afresh: where
no word runs across the border, the transcription of the left side begins that of the whole, and if
the left side is closed, texts and hits are those of the two sides together. -/
theorem transcribe_append (policy : QuotePolicy) {a b : String}
    (h : areParted a.toList b.toList = true) :
    (transcribe policy a "").toList <+: (transcribe policy (a ++ b) "").toList ∧
    (IsClosed policy a →
      transcribe policy (a ++ b) "" = transcribe policy a "" ++ transcribe policy b "" ∧
      ∀ k, (transcribeDetailed policy (a ++ b) "").hitsOf k =
        (transcribeDetailed policy a "").hitsOf k + (transcribeDetailed policy b "").hitsOf k) := by
  have hwhole : (transcribe policy (a ++ b) "").toList =
      (transcribe policy a "").toList ++
        reword policy (Rulebook.spelling rulebook) (run policy .start a.toList) b.toList := by
    rw [toList_transcribe_empty, String.toList_append, reword_append h, toList_transcribe_empty]
  refine ⟨⟨_, hwhole.symm⟩, fun hclosed => ⟨?_, fun k => ?_⟩⟩
  · refine String.toList_inj.mp ?_
    rw [hwhole, hclosed.run_eq, String.toList_append, toList_transcribe_empty policy b]
  · rw [hitsOf_transcribeDetailed, hitsOf_transcribeDetailed, hitsOf_transcribeDetailed,
      freeWords_append h hclosed, List.count_append, Nat.mul_add]

/-- A keyword against a closing quote, a backslash pair at the border and a literal behind it. -/
theorem transcribe_append_at_quote :
    areParted "use \"catch\"use\\\\".toList "catch \"use".toList = true ∧
      IsClosed .escapeAware "use \"catch\"use\\\\" ∧
      transcribe .escapeAware ("use \"catch\"use\\\\" ++ "catch \"use") "" =
        transcribe .escapeAware "use \"catch\"use\\\\" "" ++
          transcribe .escapeAware "catch \"use" "" := by
  have hparted : areParted "use \"catch\"use\\\\".toList "catch \"use".toList = true := by
    decide
  have hclosed : IsClosed .escapeAware "use \"catch\"use\\\\" :=
    ⟨by decide, fun _ => by decide +kernel⟩
  exact ⟨hparted, hclosed, ((transcribe_append .escapeAware hparted).2 hclosed).1⟩

end Transcription
