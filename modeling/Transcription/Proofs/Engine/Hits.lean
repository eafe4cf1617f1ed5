import Transcription.Proofs.Rulebook.Spelling

/-!
# The hits of a transcription

A transcription counts its replacements rule by rule, each on the text that the rules before it have
left. For settled plain rules every count is already that of the source: a rule neither adds nor
removes an unprotected word that a later rule looks for. The report therefore lists the rules of
the book whose keyword stands in the source, with the number of times that it does.
-/

namespace Transcription

open Text Literal Replacement

variable {policy : QuotePolicy}

/-- The hit of a rule on a text in which its keyword stands unprotected. -/
def Rule.hit? (r : Rule) (policy : QuotePolicy) (text : String) : Option RuleHit :=
  let n := (freeWords policy text).count r.keyword
  if n = 0 then none else some ⟨r.keyword, r.replacement, n⟩

namespace Engine

/-- A plain rule replaces its keyword and leaves its hit. -/
theorem applyRule_of_isPlain {r : Rule} (h : r.isPlain = true) (d : Draft) :
    applyRule policy d r = ⟨replaceWord policy d.text r.keyword r.replacement,
      d.hits ++ (r.hit? policy d.text).toList⟩ := by
  have hcount : (replaceWordCounted policy d.text r.keyword r.replacement).2 =
      (freeWords policy d.text).count r.keyword := by
    rw [count_freeWords, replaceWordCounted, rewrite_of_isWord (Rule.isWord_keyword h)]
  have htext := text_applyRule policy d r
  rw [applyRule] at htext ⊢
  rw [Rule.hit?]
  by_cases hzero : (freeWords policy d.text).count r.keyword = 0
  · simp only [hcount, hzero, if_true] at htext ⊢
    rw [← htext, Option.toList_none, List.append_nil]
  · simp only [hcount, hzero, if_false]
    rfl

/-- A plain rule keeps the count of every word that it neither looks for nor writes. -/
theorem count_freeWords_replaceWord {r : Rule} (h : r.isPlain = true) {k : String}
    (hk : isWord k.toList = true) (hkeyword : r.keyword ≠ k) (hreplacement : r.replacement ≠ k)
    (text : String) :
    (freeWords policy (replaceWord policy text r.keyword r.replacement)).count k =
      (freeWords policy text).count k := by
  rw [count_freeWords, count_freeWords, toList_replaceWord_rule h,
    count_freeWordsFrom_reword (Rule.isRewording_spelling h) hk]
  -- a word is respelled to `k` just when it is `k`
  have hiff : ∀ w, r.spelling w = k.toList ↔ w = k.toList := by
    intro w
    by_cases hw : w = r.keyword.toList
    · have hne : r.replacement.toList ≠ k.toList := fun heq =>
        hreplacement (String.toList_inj.mp heq)
      have hne' : r.keyword.toList ≠ k.toList := fun heq => hkeyword (String.toList_inj.mp heq)
      rw [hw, Rule.spelling, spelling_self]
      exact ⟨fun heq => absurd heq hne, fun heq => absurd heq hne'⟩
    · rw [Rule.spelling, spelling_of_ne hw]
  rw [List.count_eq_countP, List.countP_map, List.count_eq_countP]
  refine List.countP_congr fun w _ => ?_
  simp [hiff w]

/-- Settled plain rules leave the hits that they have on the text they begin with. -/
theorem foldl_applyRule (policy : QuotePolicy) {rules : List Rule}
    (hplain : ∀ r ∈ rules, r.isPlain = true) (hsettled : Rulebook.IsSettled rules) (d : Draft) :
    rules.foldl (applyRule policy) d = ⟨replaceInOrder policy rules d.text,
      d.hits ++ rules.filterMap fun r => r.hit? policy d.text⟩ := by
  induction rules generalizing d with
  | nil => simp
  | cons r rules ih =>
      obtain ⟨hr, hrules⟩ := List.pairwise_cons.mp hsettled
      have hplain' : ∀ a ∈ rules, a.isPlain = true := fun a ha =>
        hplain a (List.mem_cons_of_mem r ha)
      rw [List.foldl_cons, applyRule_of_isPlain (hplain r (by simp)), ih hplain' hrules,
        replaceInOrder_cons, List.filterMap_cons, List.append_assoc]
      -- the rest of the rules have the hits that they had before this one
      have hlater : rules.filterMap (fun a =>
            a.hit? policy (replaceWord policy d.text r.keyword r.replacement)) =
          rules.filterMap fun a => a.hit? policy d.text := by
        refine List.filterMap_congr fun a ha => ?_
        rw [Rule.hit?, Rule.hit?, count_freeWords_replaceWord (hplain r (by simp))
          (Rule.isWord_keyword (hplain' a ha)) (hr a ha).2 (hr a ha).1]
      rw [hlater]
      cases r.hit? policy d.text <;> rfl

end Engine

/-- A report lists the hits of the book on the source. -/
theorem applied_transcribeDetailed (policy : QuotePolicy) (code currency : String) :
    (transcribeDetailed policy code currency).applied =
      rulebook.filterMap fun r => r.hit? policy code := by
  have hfold := Engine.foldl_applyRule policy Rulebook.isPlain_of_mem Rulebook.isSettled_rulebook
    ⟨code, []⟩
  rw [transcribeDetailed]
  by_cases h : code.isEmpty
  · -- in an empty source no keyword stands
    have hnone : ∀ r : Rule, r.hit? policy "" = none := fun r => by
      simp [Rule.hit?, freeWords_eq]
    rw [if_pos h, String.isEmpty_iff.mp h, List.filterMap_congr fun r _ => hnone r]
    exact (List.filterMap_eq_nil_iff.mpr fun _ _ => rfl).symm
  · rw [if_neg h]
    simp only [Engine.applyRules, hfold, List.nil_append]

/-- How many replacements of a keyword a list of hits tells of. -/
def countHits (keyword : String) : List RuleHit → Nat
  | [] => 0
  | h :: hs => (if h.keyword = keyword then h.count else 0) + countHits keyword hs

@[simp] theorem countHits_nil (keyword : String) : countHits keyword [] = 0 := rfl

@[simp] theorem countHits_cons (keyword : String) (h : RuleHit) (hs : List RuleHit) :
    countHits keyword (h :: hs) =
      (if h.keyword = keyword then h.count else 0) + countHits keyword hs := rfl

/-- How often a report says that a keyword was replaced. -/
def Report.hitsOf (report : Report) (keyword : String) : Nat :=
  countHits keyword report.applied

/-- The hits of rules on a text count a keyword once for each rule that has it. -/
theorem countHits_filterMap_hit? (rules : List Rule) (text k : String) :
    countHits k (rules.filterMap fun r => r.hit? policy text) =
      (rules.map Rule.keyword).count k * (freeWords policy text).count k := by
  induction rules with
  | nil => simp
  | cons r rules ih =>
      rw [List.filterMap_cons, List.map_cons, List.count_cons, Nat.add_mul, ← ih, Rule.hit?]
      by_cases hk : r.keyword = k
      · subst hk
        by_cases hzero : (freeWords policy text).count r.keyword = 0
        · simp [hzero]
        · simp [hzero, Nat.add_comm]
      · by_cases hzero : (freeWords policy text).count r.keyword = 0 <;> simp [hzero, hk]

/-- A report counts the unprotected occurrences of each keyword of the book in the source. -/
theorem hitsOf_transcribeDetailed (policy : QuotePolicy) (code currency k : String) :
    (transcribeDetailed policy code currency).hitsOf k =
      (rulebook.map Rule.keyword).count k * (freeWords policy code).count k := by
  rw [Report.hitsOf, applied_transcribeDetailed, countHits_filterMap_hit?]

end Transcription
