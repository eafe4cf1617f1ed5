import Transcription.Proofs.Engine.Concatenation
import Transcription.Proofs.Rulebook.Order

/-!
# Transcribing a transcription

What a transcription writes is read again when its text is transcribed once more. Of the keywords
the book writes `catch` alone, for `revive`, and no rule takes the protection of a literal away. The
keywords that are left over are therefore the `catch`es that have been written. A second
transcription turns each of them into `let`, and a third one finds nothing to do.
-/

namespace Transcription

open Text Literal Rulebook

variable {policy : QuotePolicy} {text : String}

namespace Rulebook

/-- The one word that the book respells to a keyword is `revive`, and the keyword is `catch`. -/
theorem spelling_eq_keyword_iff {r : Rule} (hr : r ∈ rulebook) {w : List Char} :
    spelling rulebook w = r.keyword.toList ↔
      w = reviveRule.keyword.toList ∧ r = catchRule := by
  constructor
  · intro hspelling
    by_cases hkey : ∃ a ∈ rulebook, w = a.keyword.toList
    · obtain ⟨a, ha, rfl⟩ := hkey
      by_cases hrevive : a = reviveRule
      · subst hrevive
        rw [spelling_rulebook_revive, String.toList_inj] at hspelling
        exact ⟨rfl, (eq_of_replacement_eq_keyword _ ha r hr hspelling).2⟩
      · rw [spelling_keyword (.refl _) ha hrevive, String.toList_inj] at hspelling
        exact absurd (eq_of_replacement_eq_keyword a ha r hr hspelling).1 hrevive
    · -- a word that is no keyword keeps its spelling
      have hnone : ∀ a ∈ rulebook, w ≠ a.keyword.toList := fun a ha heq => hkey ⟨a, ha, heq⟩
      rw [spelling_of_ne_keyword hnone] at hspelling
      exact absurd hspelling (hnone r hr)
  · rintro ⟨rfl, rfl⟩
    exact spelling_rulebook_revive

end Rulebook

/-- A keyword is left over as often as it was written: `catch` for each `revive`, and no other. -/
theorem count_freeWords_transcribe (policy : QuotePolicy) (code : String) {r : Rule}
    (hr : r ∈ rulebook) :
    (freeWords policy (transcribe policy code "")).count r.keyword =
      if r = catchRule then (freeWords policy code).count reviveRule.keyword else 0 := by
  have hword := Rule.isWord_keyword (isPlain_of_mem r hr)
  rw [count_freeWords, toList_transcribe_empty,
    count_freeWordsFrom_reword (isRewording_spelling isPlain_of_mem) hword, List.count_eq_countP,
    List.countP_map]
  by_cases hcatch : r = catchRule
  · rw [if_pos hcatch, count_freeWords, List.count_eq_countP]
    refine List.countP_congr fun w _ => ?_
    rw [Function.comp_apply, beq_iff_eq, beq_iff_eq, spelling_eq_keyword_iff hr]
    exact and_iff_left hcatch
  · rw [if_neg hcatch, List.countP_eq_zero]
    intro w _
    simp [spelling_eq_keyword_iff hr, hcatch]

/-- A text without unprotected keywords is transcribed to itself. -/
theorem transcribe_of_no_keyword (h : ∀ r ∈ rulebook, r.keyword ∉ freeWords policy text) :
    transcribe policy text "" = text := by
  rw [← String.toList_inj, toList_transcribe_empty]
  have hkept : ∀ w ∈ freeWordsFrom policy .start text.toList, spelling rulebook w = w := by
    intro w hw
    refine spelling_of_ne_keyword fun r hr heq => h r hr ?_
    rw [mem_freeWords_iff, ← heq]
    exact hw
  rw [reword_congr hkept, reword_id]

/-- A source without an unprotected `revive` leaves no keyword over. -/
theorem keyword_not_mem_freeWords_transcribe {code : String}
    (h : (freeWords policy code).count reviveRule.keyword = 0) {r : Rule} (hr : r ∈ rulebook) :
    r.keyword ∉ freeWords policy (transcribe policy code "") := by
  rw [← List.count_eq_zero, count_freeWords_transcribe policy code hr, h, ite_self]

/-- The hits on a text whose keywords are `catch` alone. -/
theorem filterMap_hit?_of_only_catch
    (h : ∀ r ∈ rulebook, r ≠ catchRule → (freeWords policy text).count r.keyword = 0) :
    (rulebook.filterMap fun r => r.hit? policy text) =
      (catchRule.hit? policy text).toList := by
  have hbook : rulebook = catchRule :: rulebook.tail := rfl
  have hrest : rulebook.tail.filterMap (fun r => r.hit? policy text) = [] := by
    refine List.filterMap_eq_nil_iff.mpr fun r hr => ?_
    have hne : r ≠ catchRule := by
      rintro rfl
      exact (List.nodup_cons.mp (hbook ▸ nodup_rulebook)).1 hr
    simp [Rule.hit?, h r (List.mem_of_mem_tail hr) hne]
  rw [hbook, List.filterMap_cons, hrest]
  cases catchRule.hit? policy text <;> rfl

/-- After one transcription `catch` is the only keyword that is left over, once for each unprotected
`revive` of the source. A second one has these hits and no others, and it leaves nothing over for a
third. A source without an unprotected `revive` is transcribed once and for all. -/
theorem transcribe_repeatedly (policy : QuotePolicy) (code : String) :
    let first := transcribe policy code ""
    let second := transcribe policy first ""
    let revives := (freeWords policy code).count "revive"
    (∀ r ∈ rulebook, r.keyword ∈ freeWords policy first → r.keyword = "catch") ∧
    (freeWords policy first).count "catch" = revives ∧
    (transcribeDetailed policy first "").applied =
      (if revives = 0 then [] else [⟨"catch", "let", revives⟩]) ∧
    transcribe policy second "" = second ∧
    (revives = 0 → second = first) := by
  intro first second revives
  have hcatch : (freeWords policy first).count "catch" = revives :=
    (count_freeWords_transcribe policy code catchRule_mem).trans (if_pos rfl)
  have hothers : ∀ r ∈ rulebook, r ≠ catchRule → (freeWords policy first).count r.keyword = 0 :=
    fun r hr hne => (count_freeWords_transcribe policy code hr).trans (if_neg hne)
  refine ⟨?_, hcatch, ?_, ?_, ?_⟩
  · intro r hr hmem
    by_contra hne
    have hrule : r ≠ catchRule := by
      rintro rfl
      exact hne rfl
    exact List.count_eq_zero.mp (hothers r hr hrule) hmem
  · have hcount : (freeWords policy first).count catchRule.keyword = revives := hcatch
    rw [applied_transcribeDetailed, filterMap_hit?_of_only_catch hothers, Rule.hit?, hcount]
    by_cases hzero : revives = 0
    · rw [if_pos hzero, if_pos hzero, Option.toList_none]
    · rw [if_neg hzero, if_neg hzero, Option.toList_some]
      rfl
  · -- the first transcription has left no `revive` for the second
    have hnone := hothers reviveRule reviveRule_mem (by decide)
    exact transcribe_of_no_keyword fun r hr => keyword_not_mem_freeWords_transcribe hnone hr
  · intro hzero
    exact transcribe_of_no_keyword fun r hr => keyword_not_mem_freeWords_transcribe hzero hr

/-- An unprotected `revive` is left over as `catch`; one in a literal leaves nothing over. -/
theorem transcribe_repeatedly_revive :
    let first := transcribe .naive "revive \"revive\" use" ""
    let quoted := transcribe .naive "\"revive\" use" ""
    catchRule ∈ rulebook ∧ catchRule.keyword ∈ freeWords .naive first ∧
      (transcribeDetailed .naive first "").applied = [⟨"catch", "let", 1⟩] ∧
      (freeWords .naive "\"revive\" use").count "revive" = 0 ∧
      transcribe .naive quoted "" = quoted := by
  have hone : (freeWords .naive "revive \"revive\" use").count "revive" = 1 := by decide
  have hzero : (freeWords .naive "\"revive\" use").count "revive" = 0 := by decide
  obtain ⟨-, hcatch, happlied, -, -⟩ := transcribe_repeatedly .naive "revive \"revive\" use"
  obtain ⟨-, -, -, -, hkept⟩ := transcribe_repeatedly .naive "\"revive\" use"
  rw [hone] at hcatch happlied
  refine ⟨catchRule_mem, ?_, happlied, hzero, hkept hzero⟩
  exact List.count_pos_iff.mp (Nat.lt_of_lt_of_eq Nat.one_pos hcatch.symm)

end Transcription
