import Transcription.Proofs.Literal.Neutral
import Transcription.Proofs.Text.Runs
import Transcription.Proofs.WholeWord

/-!
# Replacing a keyword twice

A keyword that is a word is replaced where it is a maximal run of word characters. What stands
beside it belongs to no word, so no word runs across the borders of what is written for it. When the
replacement is neutral and does not hold the keyword as such a run, no unprotected keyword is left
over, and a second replacement finds nothing to do.
-/

namespace Transcription.Replacement

open Text Literal

variable {policy : QuotePolicy} {k r : List Char}

/-- Nothing runs across the border to a text that begins apart. -/
theorem areParted_of_beginsApart (v : List Char) {rest : List Char} (h : beginsApart rest = true) :
    areParted v rest = true := by
  have hrest : rest.head?.any isWordChar = false := by simpa [beginsApart] using h
  simp [areParted, hrest]

theorem map_snd_markFrom (policy : QuotePolicy) (s : State) (ps : List Piece) :
    (markFrom policy s ps).map Prod.snd = ps := by
  induction ps generalizing s with
  | nil => rfl
  | cons p ps ih => rw [markFrom_cons, List.map_cons, ih]

/-- A word outside literals is a piece of the text. -/
theorem mem_pieces_of_mem_freeWordsFrom {w text : List Char} {s : State}
    (h : w ∈ freeWordsFrom policy s text) : Piece.word w ∈ pieces text := by
  obtain ⟨⟨shielded, p⟩, hmem, hword⟩ := List.mem_filterMap.mp h
  have hpiece : p = Piece.word w := by
    cases p <;> cases shielded <;> simp_all [freeWord?]
  rw [← map_snd_markFrom policy s (pieces text), ← hpiece]
  exact List.mem_map_of_mem hmem

/-- A keyword is left over nowhere outside literals when a neutral replacement without it is written
for it. -/
theorem not_mem_freeWordsFrom_reword (hr : IsNeutral policy r) (hnone : Piece.word k ∉ pieces r)
    {s : State} (hs : IsReachable policy s) (text : List Char) :
    k ∉ freeWordsFrom policy s (reword policy (spelling k r) s text) := by
  induction text using word_induction generalizing s with
  | nil => simp
  | other c cs hc ih =>
      rw [reword_cons_other hc, freeWordsFrom_cons_other hc]
      exact ih (hs.step c)
  | word w rest hw hrest ih =>
      have hrest' := beginsApart_reword policy hrest (spelling k r)
      obtain ⟨inside, escaped⟩ := s
      cases inside with
      | true =>
          rw [reword_word_inside hw hrest, freeWordsFrom_word_inside hw (hrest' _)]
          exact ih (isReachable_settled true)
      | false =>
          rw [reword_word_outside hw hrest]
          by_cases hkeyword : w = k
          · subst hkeyword
            rw [spelling_self, freeWordsFrom_append (areParted_of_beginsApart r (hrest' _)),
              hr.run_eq hs, List.mem_append, not_or]
            exact ⟨fun hmem => hnone (mem_pieces_of_mem_freeWordsFrom hmem),
              ih (isReachable_settled false)⟩
          · rw [spelling_of_ne hkeyword, freeWordsFrom_word_outside hw (hrest' _), List.mem_cons,
              not_or]
            exact ⟨Ne.symm hkeyword, ih (isReachable_settled false)⟩

/-- A second replacement finds nothing: a keyword that is a word is replaced once and for all by a
neutral text that does not hold it as a maximal run of word characters. -/
theorem replaceWordCounted_replaceWord (policy : QuotePolicy) (text : String)
    {keyword replacement : String} (hk : isWord keyword.toList = true)
    (hr : IsNeutral policy replacement.toList)
    (hnone : ∀ q, ¬ IsRunAt replacement.toList keyword.toList q) :
    replaceWordCounted policy (replaceWord policy text keyword replacement) keyword replacement =
      (replaceWord policy text keyword replacement, 0) := by
  have hpiece : Piece.word keyword.toList ∉ pieces replacement.toList := by
    rw [← exists_isRunAt_iff, not_exists]
    exact hnone
  have hcount : (rewrite policy keyword.toList replacement.toList
      (replaceWord policy text keyword replacement).toList).count = 0 := by
    rw [toList_replaceWord, rewrite_of_isWord hk, rewrite_of_isWord hk, List.count_eq_zero]
    exact not_mem_freeWordsFrom_reword hr hpiece isReachable_start text.toList
  rw [replaceWordCounted, text_rewrite_of_count_eq_zero hcount, hcount, String.ofList_toList]

/-- The replacement may hold the keyword within longer words. A keyword behind a backslash is
replaced, and one in a literal is kept both times. -/
theorem replaceWordCounted_replaceWord_within_words :
    isWord "use".toList = true ∧ IsNeutral .escapeAware "reuse-used".toList ∧
      (∀ q, ¬ IsRunAt "reuse-used".toList "use".toList q) ∧
      replaceWordCounted .escapeAware
          (replaceWord .escapeAware "\\use\"use\" use" "use" "reuse-used") "use" "reuse-used" =
        ("\\reuse-used\"use\" reuse-used", 0) := by
  have hword : isWord "use".toList = true := by decide
  have hneutral : IsNeutral .escapeAware "reuse-used".toList :=
    ⟨by decide, fun _ => by decide, fun _ => by decide⟩
  have hnone : ∀ q, ¬ IsRunAt "reuse-used".toList "use".toList q := by
    rw [← not_exists, exists_isRunAt_iff]
    decide
  have honce : replaceWord .escapeAware "\\use\"use\" use" "use" "reuse-used" =
      "\\reuse-used\"use\" reuse-used" := by decide
  have htwice :=
    replaceWordCounted_replaceWord .escapeAware "\\use\"use\" use" hword hneutral hnone
  exact ⟨hword, hneutral, hnone, htwice.trans (congrArg (·, 0) honce)⟩

-- an empty replacement takes the protection of a literal away where backslashes escape
example :
    let once := replaceWord .escapeAware "\\use\"use\"" "use" ""
    replaceWordCounted .escapeAware once "use" "" = ("\\\"\"", 1) := by
  decide

end Transcription.Replacement
