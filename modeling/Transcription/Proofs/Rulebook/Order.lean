import Transcription.Proofs.Rulebook.Spelling
import Mathlib.Data.List.Basic

/-!
# The order of the rules

The book may be applied in any order in which `catch` comes before `revive`. Of all replacements
only the one for `revive` is itself a keyword, so every other word is respelled by its own rule
wherever that rule stands. When `revive` comes first, what it writes is taken for the keyword
`catch`: each unprotected `revive` ends as `let` instead of `catch`, and nothing else differs.
-/

namespace Transcription

open Text Literal Replacement

namespace Rulebook

/-- The rule for declarations. -/
def catchRule : Rule := ⟨"catch", "let"⟩

/-- The rule for handlers, which writes the keyword of the other. -/
def reviveRule : Rule := ⟨"revive", "catch"⟩

theorem catchRule_mem : catchRule ∈ rulebook := by
  decide

theorem reviveRule_mem : reviveRule ∈ rulebook := by
  decide

/-- Rules of the book with one keyword are one rule. -/
theorem eq_of_keyword_eq : ∀ a ∈ rulebook, ∀ b ∈ rulebook, a.keyword = b.keyword → a = b := by
  decide

/-- Only the replacement of `revive` is a keyword, and it is the keyword `catch`. -/
theorem eq_of_replacement_eq_keyword :
    ∀ a ∈ rulebook, ∀ b ∈ rulebook, a.replacement = b.keyword → a = reviveRule ∧ b = catchRule := by
  decide

theorem nodup_rulebook : rulebook.Nodup :=
  List.Pairwise.of_map Rule.keyword (fun _ _ hne heq => hne (congrArg _ heq)) keywords_nodup

variable {rules : List Rule}

/-- Among rules of the book a rule is met after rules with other keywords only. -/
theorem exists_split (h : rules ⊆ rulebook) {r : Rule} (hr : r ∈ rules) :
    ∃ xs ys, rules = xs ++ r :: ys ∧ r ∉ xs ∧
      spelling rules r.keyword.toList = spelling ys r.replacement.toList := by
  obtain ⟨xs, ys, hsplit, hxs⟩ := List.eq_append_cons_of_mem hr
  refine ⟨xs, ys, hsplit, hxs, ?_⟩
  rw [hsplit]
  refine spelling_append_cons (fun a ha heq => hxs ?_) ys
  have hmem : a ∈ rules := hsplit ▸ List.mem_append_left _ ha
  exact eq_of_keyword_eq a (h hmem) r (h hr) heq ▸ ha

/-- A replacement keeps its spelling among rules that do not have it as their keyword. -/
theorem spelling_replacement (h : rules ⊆ rulebook) {r : Rule} (hr : r ∈ rulebook)
    (hne : r = reviveRule → catchRule ∉ rules) :
    spelling rules r.replacement.toList = r.replacement.toList := by
  refine spelling_of_ne_keyword fun a ha heq => ?_
  obtain ⟨hrevive, rfl⟩ := eq_of_replacement_eq_keyword r hr a (h ha) (String.toList_inj.mp heq)
  exact hne hrevive ha

/-- In any order of the book every keyword but `revive` is respelled by its own rule. -/
theorem spelling_keyword (h : rules.Perm rulebook) {r : Rule} (hr : r ∈ rulebook)
    (hne : r ≠ reviveRule) : spelling rules r.keyword.toList = r.replacement.toList := by
  obtain ⟨xs, ys, rfl, -, hspelling⟩ := exists_split h.subset (h.mem_iff.mpr hr)
  have hys : ys ⊆ rulebook := fun a ha => h.subset (by simp [ha])
  rw [hspelling, spelling_replacement hys hr fun heq => absurd heq hne]

/-- The order of the rules matters to no word but `revive`. -/
theorem spelling_eq_spelling_rulebook (h : rules.Perm rulebook) {w : List Char}
    (hw : w ≠ reviveRule.keyword.toList) : spelling rules w = spelling rulebook w := by
  by_cases hkey : ∃ r ∈ rulebook, w = r.keyword.toList
  · obtain ⟨r, hr, rfl⟩ := hkey
    have hne : r ≠ reviveRule := by
      rintro rfl
      exact hw rfl
    rw [spelling_keyword h hr hne, spelling_keyword (.refl _) hr hne]
  · have hnone : ∀ r ∈ rulebook, w ≠ r.keyword.toList := fun r hr heq => hkey ⟨r, hr, heq⟩
    rw [spelling_of_ne_keyword hnone,
      spelling_of_ne_keyword fun r hr => hnone r (h.mem_iff.mp hr)]

/-- With `catch` before it, `revive` is respelled once. -/
theorem spelling_revive_of_catch_lt (h : rules.Perm rulebook)
    (hlt : rules.idxOf catchRule < rules.idxOf reviveRule) :
    spelling rules reviveRule.keyword.toList = reviveRule.replacement.toList := by
  obtain ⟨xs, ys, rfl, hxs, hspelling⟩ := exists_split h.subset (h.mem_iff.mpr reviveRule_mem)
  have hys : ys ⊆ rulebook := fun a ha => h.subset (by simp [ha])
  rw [hspelling, spelling_replacement hys reviveRule_mem fun _ hmem => ?_]
  -- a rule behind `revive` has an index beyond that of `revive`
  have hnodup := List.nodup_append.mp (h.nodup_iff.mpr nodup_rulebook)
  have hcatch : catchRule ∉ xs := fun hx =>
    hnodup.2.2 _ hx _ (List.mem_cons_of_mem _ hmem) rfl
  rw [List.idxOf_append_of_notMem hcatch, List.idxOf_append_of_notMem hxs,
    List.idxOf_cons_self] at hlt
  omega

/-- With `catch` behind it, `revive` is respelled twice. -/
theorem spelling_revive_of_lt_catch (h : rules.Perm rulebook)
    (hlt : rules.idxOf reviveRule < rules.idxOf catchRule) :
    spelling rules reviveRule.keyword.toList = catchRule.replacement.toList := by
  obtain ⟨xs, ys, rfl, hxs, hspelling⟩ := exists_split h.subset (h.mem_iff.mpr reviveRule_mem)
  have hys : ys ⊆ rulebook := fun a ha => h.subset (by simp [ha])
  -- `catch` is not in front of `revive`, so it is behind it
  have hcatch : catchRule ∈ ys := by
    have hmem := h.mem_iff.mpr catchRule_mem
    rcases List.mem_append.mp hmem with hx | hx
    · have := List.idxOf_lt_length_of_mem hx
      rw [List.idxOf_append_of_notMem hxs, List.idxOf_append_of_mem hx] at hlt
      omega
    · exact (List.mem_cons.mp hx).resolve_left (by decide)
  obtain ⟨us, vs, rfl, -, hcatchSpelling⟩ := exists_split hys hcatch
  have hvs : vs ⊆ rulebook := fun a ha => hys (by simp [ha])
  rw [hspelling]
  change spelling _ catchRule.keyword.toList = _
  rw [hcatchSpelling, spelling_replacement hvs catchRule_mem fun heq => ?_]
  exact absurd heq (by decide)

theorem spelling_rulebook_revive :
    spelling rulebook reviveRule.keyword.toList = reviveRule.replacement.toList :=
  spelling_revive_of_catch_lt (.refl _) (by decide)

/-- Before or after `catch`, the rule for `revive` makes a word of it. -/
theorem spelling_eq_or_words (h : rules.Perm rulebook)
    (hlt : rules.idxOf reviveRule < rules.idxOf catchRule) (w : List Char) :
    spelling rules w = spelling rulebook w ∨
      isWord (spelling rules w) = true ∧ isWord (spelling rulebook w) = true := by
  by_cases hw : w = reviveRule.keyword.toList
  · right
    rw [hw, spelling_revive_of_lt_catch h hlt, spelling_rulebook_revive]
    decide
  · exact .inl (spelling_eq_spelling_rulebook h hw)

/-- With `revive` first, the words that the order matters to are the `revive`s. -/
theorem spelling_eq_spelling_rulebook_iff (h : rules.Perm rulebook)
    (hlt : rules.idxOf reviveRule < rules.idxOf catchRule) {w : List Char} :
    spelling rules w = spelling rulebook w ↔ w ≠ reviveRule.keyword.toList := by
  constructor
  · rintro heq rfl
    rw [spelling_revive_of_lt_catch h hlt, spelling_rulebook_revive] at heq
    exact absurd heq (by decide)
  · intro hw
    exact spelling_eq_spelling_rulebook h hw

end Rulebook

open Rulebook

/-- An order of the book that has `catch` before `revive` gives the text that the book gives. -/
theorem replaceInOrder_eq_of_catch_lt (policy : QuotePolicy) (text : String) {rules : List Rule}
    (h : rules.Perm rulebook) (hlt : rules.idxOf catchRule < rules.idxOf reviveRule) :
    replaceInOrder policy rules text = replaceInOrder policy rulebook text := by
  have hplain : ∀ r ∈ rules, r.isPlain = true := fun r hr => isPlain_of_mem r (h.mem_iff.mp hr)
  rw [← String.toList_inj, toList_replaceInOrder policy hplain,
    toList_replaceInOrder policy isPlain_of_mem]
  refine reword_congr fun w _ => ?_
  by_cases hw : w = reviveRule.keyword.toList
  · rw [hw, spelling_revive_of_catch_lt h hlt, spelling_rulebook_revive]
  · exact spelling_eq_spelling_rulebook h hw

/-- An order of the book that has `revive` before `catch` gives another text exactly when an
unprotected `revive` stands in it. -/
theorem replaceInOrder_eq_iff_of_lt_catch (policy : QuotePolicy) (text : String)
    {rules : List Rule} (h : rules.Perm rulebook)
    (hlt : rules.idxOf reviveRule < rules.idxOf catchRule) :
    replaceInOrder policy rules text = replaceInOrder policy rulebook text ↔
      reviveRule.keyword ∉ freeWords policy text := by
  have hplain : ∀ r ∈ rules, r.isPlain = true := fun r hr => isPlain_of_mem r (h.mem_iff.mp hr)
  rw [← String.toList_inj, toList_replaceInOrder policy hplain,
    toList_replaceInOrder policy isPlain_of_mem, mem_freeWords_iff,
    reword_eq_reword_iff (spelling_eq_or_words h hlt)]
  constructor
  · intro hagree hmem
    exact (spelling_eq_spelling_rulebook_iff h hlt).mp (hagree _ hmem) rfl
  · intro hnone w hw
    refine (spelling_eq_spelling_rulebook_iff h hlt).mpr ?_
    rintro rfl
    exact hnone hw

/-- The rules give the same text in every order of the book that has `catch` before `revive`. In
the other orders the text is the same exactly when no unprotected `revive` stands in it. -/
theorem replaceInOrder_perm (policy : QuotePolicy) (text : String) {rules : List Rule}
    (h : rules.Perm rulebook) :
    (rules.idxOf catchRule < rules.idxOf reviveRule →
      replaceInOrder policy rules text = replaceInOrder policy rulebook text) ∧
    (rules.idxOf reviveRule < rules.idxOf catchRule →
      (replaceInOrder policy rules text = replaceInOrder policy rulebook text ↔
        "revive" ∉ freeWords policy text)) := by
  constructor
  · intro hlt
    exact replaceInOrder_eq_of_catch_lt policy text h hlt
  · intro hlt
    exact replaceInOrder_eq_iff_of_lt_catch policy text h hlt

/-- In the reversed book `revive` comes before `catch`, and it shows in a text with a `revive`. -/
theorem replaceInOrder_reverse :
    rulebook.reverse.Perm rulebook ∧
      rulebook.reverse.idxOf reviveRule < rulebook.reverse.idxOf catchRule ∧
      "revive" ∈ freeWords .naive "\"revive\" revive (e)" ∧
      replaceInOrder .naive rulebook.reverse "\"revive\" revive (e)" ≠
        replaceInOrder .naive rulebook "\"revive\" revive (e)" := by
  have hperm : rulebook.reverse.Perm rulebook := List.reverse_perm rulebook
  have hlt : rulebook.reverse.idxOf reviveRule < rulebook.reverse.idxOf catchRule := by
    decide
  have hmem : "revive" ∈ freeWords .naive "\"revive\" revive (e)" := by
    decide
  refine ⟨hperm, hlt, hmem, fun heq => ?_⟩
  exact ((replaceInOrder_perm .naive "\"revive\" revive (e)" hperm).2 hlt).mp heq hmem

end Transcription
