import Transcription.Engine
import Transcription.Proofs.WholeWord

/-!
# The spelling of a list of rules

A rule is plain when its keyword is a word and its replacement is a word or signs. Plain rules that
are applied one after another reword the text a single time, by the spelling that takes a word
through the rules in order. All rules of the book are plain.

A list of rules is settled when no rule writes a keyword of a later one, nor shares its keyword. A
word then meets at most one rule on its way, so its spelling is found by looking the word up.
-/

namespace Transcription

open Text Literal Replacement

/-- Whether a rule turns a word into a word or into signs. -/
def Rule.isPlain (r : Rule) : Bool :=
  isWord r.keyword.toList && (isWord r.replacement.toList || isSigns r.replacement.toList)

/-- The spelling that a rule gives to a word. -/
def Rule.spelling (r : Rule) : List Char → List Char :=
  Replacement.spelling r.keyword.toList r.replacement.toList

theorem Rule.isWord_keyword {r : Rule} (h : r.isPlain = true) : isWord r.keyword.toList = true := by
  rw [Rule.isPlain, Bool.and_eq_true] at h
  exact h.1

theorem Rule.isRewording_spelling {r : Rule} (h : r.isPlain = true) : IsRewording r.spelling := by
  rw [Rule.isPlain, Bool.and_eq_true, Bool.or_eq_true] at h
  constructor
  · intro w hw
    by_cases hk : w = r.keyword.toList
    · rw [Rule.spelling, hk, spelling_self]
      exact h.2
    · rw [Rule.spelling, spelling_of_ne hk]
      exact .inl hw
  · intro v hv
    refine spelling_of_ne ?_ _
    rintro rfl
    rw [h.1] at hv
    exact Bool.noConfusion hv

/-- Replace the keywords of rules outside literals, one rule after another. -/
def replaceInOrder (policy : QuotePolicy) (rules : List Rule) (text : String) : String :=
  rules.foldl (fun t r => replaceWord policy t r.keyword r.replacement) text

@[simp] theorem replaceInOrder_nil (policy : QuotePolicy) (text : String) :
    replaceInOrder policy [] text = text := rfl

@[simp] theorem replaceInOrder_cons (policy : QuotePolicy) (r : Rule) (rules : List Rule)
    (text : String) :
    replaceInOrder policy (r :: rules) text =
      replaceInOrder policy rules (replaceWord policy text r.keyword r.replacement) := rfl

/-- One plain rule rewords the text. -/
theorem toList_replaceWord_rule {r : Rule} (h : r.isPlain = true) (policy : QuotePolicy)
    (text : String) :
    (replaceWord policy text r.keyword r.replacement).toList =
      reword policy r.spelling .start text.toList := by
  rw [toList_replaceWord, rewrite_of_isWord (Rule.isWord_keyword h)]
  rfl

namespace Rulebook

/-- Take a word through rules in order. -/
def spelling (rules : List Rule) (w : List Char) : List Char :=
  rules.foldl (fun v r => r.spelling v) w

@[simp] theorem spelling_nil (w : List Char) : spelling [] w = w := rfl

theorem spelling_cons (r : Rule) (rules : List Rule) :
    spelling (r :: rules) = spelling rules ∘ r.spelling := rfl

theorem spelling_append (xs ys : List Rule) (w : List Char) :
    spelling (xs ++ ys) w = spelling ys (spelling xs w) :=
  List.foldl_append

theorem isRewording_spelling {rules : List Rule} (h : ∀ r ∈ rules, r.isPlain = true) :
    IsRewording (spelling rules) := by
  induction rules with
  | nil => exact .id
  | cons r rules ih =>
      rw [spelling_cons]
      exact (ih fun a ha => h a (List.mem_cons_of_mem r ha)).comp
        (Rule.isRewording_spelling (h r (by simp)))

/-- Plain rules in order reword the text once, by their common spelling. -/
theorem toList_replaceInOrder (policy : QuotePolicy) {rules : List Rule}
    (h : ∀ r ∈ rules, r.isPlain = true) (text : String) :
    (replaceInOrder policy rules text).toList =
      reword policy (spelling rules) .start text.toList := by
  induction rules generalizing text with
  | nil => exact (reword_id .start text.toList).symm
  | cons r rules ih =>
      have hrules : ∀ a ∈ rules, a.isPlain = true := fun a ha => h a (List.mem_cons_of_mem r ha)
      have hr : r.isPlain = true := h r (by simp)
      rw [replaceInOrder_cons, ih hrules, toList_replaceWord_rule hr,
        reword_reword (isRewording_spelling hrules) (Rule.isRewording_spelling hr), spelling_cons]

/-- A word that is no keyword of the rules keeps its spelling. -/
theorem spelling_of_ne_keyword {rules : List Rule} {w : List Char}
    (h : ∀ r ∈ rules, w ≠ r.keyword.toList) : spelling rules w = w := by
  induction rules with
  | nil => rfl
  | cons r rules ih =>
      rw [spelling_cons, Function.comp_apply, Rule.spelling, spelling_of_ne (h r (by simp))]
      exact ih fun a ha => h a (List.mem_cons_of_mem r ha)

/-- A keyword that no earlier rule has is respelled by its rule and then by the later ones. -/
theorem spelling_append_cons {xs : List Rule} {r : Rule}
    (h : ∀ a ∈ xs, a.keyword ≠ r.keyword) (ys : List Rule) :
    spelling (xs ++ r :: ys) r.keyword.toList = spelling ys r.replacement.toList := by
  have hxs : ∀ a ∈ xs, r.keyword.toList ≠ a.keyword.toList := fun a ha heq =>
    h a ha (String.toList_inj.mp heq).symm
  rw [spelling_append, spelling_of_ne_keyword hxs, spelling_cons, Function.comp_apply,
    Rule.spelling, spelling_self]

/-- No rule writes a keyword of a later rule or has the same keyword. -/
def IsSettled (rules : List Rule) : Prop :=
  rules.Pairwise fun a b => a.replacement ≠ b.keyword ∧ a.keyword ≠ b.keyword

instance (rules : List Rule) : Decidable (IsSettled rules) :=
  inferInstanceAs (Decidable (rules.Pairwise _))

/-- The spelling of a word under the first rule that has it as its keyword. -/
def spellingOf? (rules : List Rule) (w : String) : Option String :=
  (rules.find? fun r => r.keyword == w).map Rule.replacement

/-- Settled rules spell a word as the rule that has it says. -/
theorem spelling_of_isSettled {rules : List Rule} (h : IsSettled rules) (w : List Char) :
    spelling rules w =
      ((spellingOf? rules (String.ofList w)).map String.toList).getD w := by
  induction rules with
  | nil => rfl
  | cons r rules ih =>
      obtain ⟨hr, hrules⟩ := List.pairwise_cons.mp h
      rw [spelling_cons, Function.comp_apply, spellingOf?, List.find?_cons]
      by_cases hw : w = r.keyword.toList
      · -- what the rule writes meets no later rule
        have hlater : ∀ a ∈ rules, r.replacement.toList ≠ a.keyword.toList := fun a ha heq =>
          (hr a ha).1 (String.toList_inj.mp heq)
        rw [hw, Rule.spelling, spelling_self, spelling_of_ne_keyword hlater]
        simp
      · have hne : (r.keyword == String.ofList w) = false := by
          refine beq_eq_false_iff_ne.mpr fun heq => hw ?_
          rw [heq, String.toList_ofList]
        rw [Rule.spelling, spelling_of_ne hw, hne, ih hrules]
        rfl

/-- All rules of the book turn words into words or signs. -/
theorem isPlain_of_mem : ∀ r ∈ rulebook, r.isPlain = true := by
  decide

/-- The book is settled. -/
theorem isSettled_rulebook : IsSettled rulebook := by
  decide

end Rulebook

end Transcription
