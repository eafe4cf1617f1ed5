import Transcription.Placement
import Transcription.Replacement

/-!
# Passages

A passage is a text together with the quote policy under which its words are replaced. The steps
of a transcription can be taken on it one at a time and in any order; each gives a new passage
with the same policy.
-/

namespace Transcription

/-- A text that is transcribed step by step. -/
structure Passage where
  text : String
  policy : QuotePolicy
  deriving Repr, DecidableEq

namespace Passage

/-- A passage under the escape-aware policy. -/
def ofString (text : String) : Passage := ⟨text, .escapeAware⟩

/-- The same text under another policy. -/
def withPolicy (p : Passage) (policy : QuotePolicy) : Passage := { p with policy }

/-- Replace a keyword outside literals. -/
def replaceWord (p : Passage) (keyword replacement : String) : Passage :=
  { p with text := Transcription.replaceWord p.policy p.text keyword replacement }

/-- Place a currency. -/
def placeCurrency (p : Passage) (symbol : String) : Passage :=
  { p with text := Transcription.placeCurrency p.text symbol }

instance : ToString Passage := ⟨Passage.text⟩

@[simp] theorem text_withPolicy (p : Passage) (policy : QuotePolicy) :
    (p.withPolicy policy).text = p.text := rfl

@[simp] theorem policy_withPolicy (p : Passage) (policy : QuotePolicy) :
    (p.withPolicy policy).policy = policy := rfl

@[simp] theorem policy_replaceWord (p : Passage) (k r : String) :
    (p.replaceWord k r).policy = p.policy := rfl

@[simp] theorem policy_placeCurrency (p : Passage) (s : String) :
    (p.placeCurrency s).policy = p.policy := rfl

end Passage

end Transcription
