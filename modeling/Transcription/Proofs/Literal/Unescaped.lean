import Transcription.Proofs.Rewording
import Transcription.Proofs.Text.Offset

/-!
# Texts without an escaped quote

The two quote policies can differ in the quotes that stand behind an odd run of backslashes alone.
Where a text has none, the scanners of both policies open and close the same literals, so the text
is reworded alike under either policy. A rewording keeps the property: what it writes for a word
has neither a quote nor a backslash in it, and it puts nothing between a quote and the backslashes
before it.
-/

namespace Transcription.Literal

open Text

/-- No double quote of the text stands directly behind an odd run of backslashes. -/
def HasNoEscapedQuote (text : String) : Prop :=
  ∀ pre post, text.toList = pre ++ '"' :: post → Even (backslashRun pre)

/-- The condition looks for a cut before an escaped quote. -/
theorem hasNoEscapedQuote_iff_not_exists {text : String} :
    HasNoEscapedQuote text ↔
      ¬ ∃ pre post, text.toList = pre ++ '"' :: post ∧ ¬ Even (backslashRun pre) := by
  simp [HasNoEscapedQuote]

instance (text : String) : Decidable (HasNoEscapedQuote text) :=
  decidable_of_iff _
    ((not_congr exists_cut_iff_getElem?.symm).trans hasNoEscapedQuote_iff_not_exists.symm)

/-- In a text that is read from a state no quote meets a scanner that waits for an escaped
character. -/
def MeetsNoEscapedQuote (s : State) (cs : List Char) : Prop :=
  ∀ pre post, cs = pre ++ '"' :: post → (run .escapeAware s pre).escaped = false

theorem hasNoEscapedQuote_iff_meets {text : String} :
    HasNoEscapedQuote text ↔ MeetsNoEscapedQuote .start text.toList := by
  simp [HasNoEscapedQuote, MeetsNoEscapedQuote, escaped_run_eq_false_iff]

theorem HasNoEscapedQuote.meets {text : String} (h : HasNoEscapedQuote text) :
    MeetsNoEscapedQuote .start text.toList :=
  hasNoEscapedQuote_iff_meets.mp h

theorem meetsNoEscapedQuote_cons {s : State} {c : Char} {cs : List Char} :
    MeetsNoEscapedQuote s (c :: cs) ↔
      (c = '"' → s.escaped = false) ∧ MeetsNoEscapedQuote (step .escapeAware s c) cs := by
  constructor
  · intro h
    refine ⟨?_, ?_⟩
    · rintro rfl
      exact h [] cs rfl
    · intro pre post hsplit
      exact h (c :: pre) post (by rw [hsplit, List.cons_append])
  · rintro ⟨hhead, htail⟩ pre post hsplit
    cases pre with
    | nil => exact hhead (List.cons.inj hsplit).1
    | cons d pre =>
        obtain ⟨rfl, hrest⟩ := List.cons.inj hsplit
        exact htail pre post hrest

/-- In front of a text stands an inert one: it is the text behind it that counts. -/
theorem meetsNoEscapedQuote_inert_append {v rest : List Char} (hne : v ≠ [])
    (hv : v.all (isInert .escapeAware) = true) (s : State) :
    MeetsNoEscapedQuote s (v ++ rest) ↔ MeetsNoEscapedQuote ⟨s.inside, false⟩ rest := by
  induction v generalizing s with
  | nil => exact absurd rfl hne
  | cons c v ih =>
      rw [List.all_cons, Bool.and_eq_true] at hv
      rw [List.cons_append, meetsNoEscapedQuote_cons, step_of_isInert hv.1]
      have hquote : c = '"' → s.escaped = false := fun hc =>
        absurd hc (ne_quote_of_isInert hv.1)
      cases v with
      | nil => exact and_iff_right hquote
      | cons d v => rw [ih (by simp) hv.2, and_iff_right hquote]

theorem meetsNoEscapedQuote_word_append {w rest : List Char} (hw : isWord w = true) (s : State) :
    MeetsNoEscapedQuote s (w ++ rest) ↔ MeetsNoEscapedQuote ⟨s.inside, false⟩ rest :=
  meetsNoEscapedQuote_inert_append (ne_nil_of_isWord hw) (inert_of_isWord hw _) s

/-- A character that is no escaped quote moves both scanners alike. -/
theorem step_naive_of_unescaped {s : State} {c : Char} (h : c = '"' → s.escaped = false) :
    step .naive ⟨s.inside, false⟩ c = ⟨(step .escapeAware s c).inside, false⟩ := by
  obtain ⟨inside, escaped⟩ := s
  by_cases hq : c = '"'
  · obtain rfl := h hq
    simp [step, hq]
  · cases escaped <;> by_cases hb : c = '\\' <;> simp [step, hq, hb]

variable {f : List Char → List Char}

/-- Without escaped quotes a text is reworded alike under both policies. -/
theorem reword_naive_eq_reword_escapeAware {s : State} {text : List Char}
    (h : MeetsNoEscapedQuote s text) (f : List Char → List Char) :
    reword .naive f ⟨s.inside, false⟩ text = reword .escapeAware f s text := by
  induction text using word_induction generalizing s with
  | nil => rfl
  | other c cs hc ih =>
      obtain ⟨hquote, hrest⟩ := meetsNoEscapedQuote_cons.mp h
      rw [reword_cons_other hc, reword_cons_other hc, step_naive_of_unescaped hquote, ih hrest]
  | word w rest hw hr ih =>
      have hrest := (meetsNoEscapedQuote_word_append hw s).mp h
      obtain ⟨inside, escaped⟩ := s
      cases inside with
      | true => rw [reword_word_inside hw hr, reword_word_inside hw hr, ih hrest]
      | false => rw [reword_word_outside hw hr, reword_word_outside hw hr, ih hrest]

/-- Rewording escapes no quote. -/
theorem meetsNoEscapedQuote_reword (hf : IsRewording f) {s : State} {text : List Char}
    (h : MeetsNoEscapedQuote s text) :
    MeetsNoEscapedQuote s (reword .escapeAware f s text) := by
  induction text using word_induction generalizing s with
  | nil => exact h
  | other c cs hc ih =>
      obtain ⟨hquote, hrest⟩ := meetsNoEscapedQuote_cons.mp h
      rw [reword_cons_other hc]
      exact meetsNoEscapedQuote_cons.mpr ⟨hquote, ih hrest⟩
  | word w rest hw hr ih =>
      have hrest := ih ((meetsNoEscapedQuote_word_append hw s).mp h)
      obtain ⟨inside, escaped⟩ := s
      cases inside with
      | true =>
          rw [reword_word_inside hw hr]
          exact (meetsNoEscapedQuote_word_append hw _).mpr hrest
      | false =>
          rw [reword_word_outside hw hr]
          rcases hf.isWord_or_isSigns w hw with hword | hsigns
          · exact (meetsNoEscapedQuote_word_append hword _).mpr hrest
          · exact (meetsNoEscapedQuote_inert_append (ne_nil_of_isSigns hsigns)
              (inert_of_isSigns hsigns _) _).mpr hrest

/-- Without escaped quotes the policy makes no difference to a rewording. -/
theorem reword_eq_reword_of_policy {text : List Char} (h : MeetsNoEscapedQuote .start text)
    (p q : QuotePolicy) (f : List Char → List Char) :
    reword p f .start text = reword q f .start text := by
  have hagree := reword_naive_eq_reword_escapeAware h f
  cases p <;> cases q
  · rfl
  · exact hagree.symm
  · exact hagree
  · rfl

end Transcription.Literal
