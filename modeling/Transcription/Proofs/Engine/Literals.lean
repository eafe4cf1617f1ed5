import Transcription.Proofs.AtOnce
import Transcription.Proofs.Literal.Texts
import Transcription.Proofs.Placement

/-!
# The literals of a transcription

A transcription keeps the literals of its source apart and in order. The rules write nothing into
a literal and nothing that begins or ends one, so the literals come out of them as they went in.
The currency is placed without regard to literals, yet a pattern that holds neither a quote nor a
backslash lies within one literal or outside all of them: placing it in a text places it in every
literal on its own.
-/

namespace Transcription

open Text Literal Placement

variable {policy : QuotePolicy} {f : List Char → List Char}

theorem inert_canonical (policy : QuotePolicy) : canonical.toList.all (isInert policy) = true := by
  rw [toList_canonical]
  cases policy <;> rfl

theorem inert_marker (policy : QuotePolicy) : marker.toList.all (isInert policy) = true := by
  rw [toList_marker]
  cases policy <;> rfl

/-- A rewording writes inert characters for a word, and at least one. -/
theorem IsRewording.inert (hf : IsRewording f) {w : List Char} (hw : isWord w = true)
    (policy : QuotePolicy) : f w ≠ [] ∧ (f w).all (isInert policy) = true := by
  rcases hf.isWord_or_isSigns w hw with h | h
  · exact ⟨ne_nil_of_isWord h, inert_of_isWord h policy⟩
  · exact ⟨ne_nil_of_isSigns h, inert_of_isSigns h policy⟩

/-- A rewording leaves the literals as they are. -/
theorem textsFrom_reword (hf : IsRewording f) (s : State) (text : List Char) :
    textsFrom policy s (reword policy f s text) = textsFrom policy s text := by
  induction text using word_induction generalizing s with
  | nil => rfl
  | other c cs hc ih => rw [reword_cons_other hc, textsFrom, textsFrom, ih]
  | word w rest hw hr ih =>
      have hword := inert_of_isWord hw policy
      obtain ⟨inside, escaped⟩ := s
      cases inside with
      | true =>
          rw [reword_word_inside hw hr, textsFrom_inert_inside (ne_nil_of_isWord hw) hword,
            textsFrom_inert_inside (ne_nil_of_isWord hw) hword, ih]
      | false =>
          obtain ⟨hne, hinert⟩ := hf.inert hw policy
          rw [reword_word_outside hw hr, textsFrom_inert_outside hne hinert,
            textsFrom_inert_outside (ne_nil_of_isWord hw) hword, ih]

/-- Plain rules leave the literals as they are. -/
theorem texts_replaceInOrder (policy : QuotePolicy) {rules : List Rule}
    (h : ∀ r ∈ rules, r.isPlain = true) (text : String) :
    texts policy (replaceInOrder policy rules text) = texts policy text := by
  rw [texts_eq, texts_eq, Rulebook.toList_replaceInOrder policy h,
    textsFrom_reword (Rulebook.isRewording_spelling h)]

/-- A pattern of inert characters is placed in each literal on its own. -/
theorem textsFrom_placed {pattern : List Char} (hne : pattern ≠ [])
    (hinert : pattern.all (isInert policy) = true) (s : State) (text : List Char) :
    textsFrom policy s (placed pattern text) = (textsFrom policy s text).map (placed pattern) := by
  induction text using placed_induction hne generalizing s with
  | nil => cases hs : s.inside <;> simp [textsFrom, hs]
  | replace rest ih =>
      rw [placed_pattern_append hne]
      obtain ⟨inside, escaped⟩ := s
      cases inside with
      | true =>
          obtain ⟨first, later, heq, -⟩ :=
            exists_textsFrom_eq_cons policy (s := ⟨true, false⟩) rfl rest
          rw [textsFrom_inert_inside canonical_ne_nil (inert_canonical policy),
            textsFrom_inert_inside hne hinert, ih, heq]
          simp [placed_pattern_append hne]
      | false =>
          rw [textsFrom_inert_outside canonical_ne_nil (inert_canonical policy),
            textsFrom_inert_outside hne hinert, ih]
  | copy c cs hnot ih =>
      rw [placed_cons_of_no_match hnot, textsFrom, textsFrom, ih]
      cases hn : (step policy s c).inside with
      | false =>
          cases s.inside with
          | false => rfl
          | true =>
              have hquote := placed_cons_of_beginning hnot (List.nil_prefix (l := cs))
              simp [hquote]
      | true =>
          -- what follows of the literal is a beginning of the rest of the text
          obtain ⟨first, later, heq, hfirst⟩ := exists_textsFrom_eq_cons policy hn cs
          have hcopy := placed_cons_of_beginning hnot hfirst
          cases s.inside <;> simp [heq, hcopy]

/-- A symbol of inert characters is placed in each literal on its own. -/
theorem texts_placeCurrency {currency : String}
    (h : ∀ c ∈ currency.toList, isInert policy c = true) (text : String) :
    texts policy (placeCurrency text currency) =
      (texts policy text).map fun t => placeCurrency t currency := by
  cases hblank : isBlankString currency with
  | true => simp [placeCurrency_of_isBlankString hblank]
  | false =>
      have hinert : (annotated currency).toList.all (isInert policy) = true := by
        refine List.all_eq_true.mpr fun c hc => ?_
        rcases mem_annotated hc with hmarker | hsymbol
        · exact List.all_eq_true.mp (inert_marker policy) c hmarker
        · exact h c hsymbol
      have hplace (t : List Char) : String.ofList (placed (annotated currency).toList t) =
          placeCurrency (String.ofList t) currency := by
        refine String.toList_inj.mp ?_
        rw [toList_placeCurrency_of_not_blank hblank, String.toList_ofList, String.toList_ofList]
      rw [texts_eq, texts_eq, toList_placeCurrency_of_not_blank hblank,
        textsFrom_placed (annotated_ne_nil currency) hinert, List.map_map, List.map_map]
      exact List.map_congr_left fun t _ => hplace t

/-- The literals of a transcription are those of the source, in order and each with the currency
placed in it, and with a blank currency they are the same. -/
theorem texts_transcribe (policy : QuotePolicy) (code currency : String)
    (h : ∀ c ∈ currency.toList, c ≠ '"' ∧ c ≠ '\\') :
    (scan policy (transcribe policy code currency)).length = (scan policy code).length ∧
      texts policy (transcribe policy code currency) =
        (texts policy code).map (fun t => placeCurrency t currency) ∧
      (isBlankString currency = true →
        texts policy (transcribe policy code currency) = texts policy code) := by
  have hinert : ∀ c ∈ currency.toList, isInert policy c = true := by
    intro c hc
    simp [isInert, h c hc]
  have htexts : texts policy (transcribe policy code currency) =
      (texts policy code).map (fun t => placeCurrency t currency) := by
    rw [transcribe_eq_placeCurrency_replaceInOrder, texts_placeCurrency hinert,
      texts_replaceInOrder policy Rulebook.isPlain_of_mem]
  refine ⟨?_, htexts, ?_⟩
  · rw [← length_texts, htexts, List.length_map, length_texts]
  · intro hblank
    rw [htexts]
    simp [placeCurrency_of_isBlankString hblank]

/-- An escaped quote within a literal, a rule between literals and a literal without an end. -/
theorem texts_transcribe_unterminated :
    let code := "\"use \x7b\x7d€ \\\" use\" catch \"\x7b\x7d€ use"
    (∀ c ∈ "€".toList, c ≠ '"' ∧ c ≠ '\\') ∧
      (scan .escapeAware (transcribe .escapeAware code "€")).length = 2 ∧
      texts .escapeAware (transcribe .escapeAware code "€") =
        (texts .escapeAware code).map fun t => placeCurrency t "€" := by
  have hplain : ∀ c ∈ "€".toList, c ≠ '"' ∧ c ≠ '\\' := by simp
  have htwo : (scan .escapeAware
      "\"use \x7b\x7d€ \\\" use\" catch \"\x7b\x7d€ use").length = 2 := by decide
  obtain ⟨hlength, htexts, -⟩ := texts_transcribe .escapeAware _ "€" hplain
  exact ⟨hplain, hlength.trans htwo, htexts⟩

end Transcription
