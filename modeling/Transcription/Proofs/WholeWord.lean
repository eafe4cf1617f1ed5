import Transcription.Proofs.Rewording
import Transcription.Proofs.Text.Walk
import Transcription.Replacement

/-!
# Replacing a whole word

When the keyword is a word, the places at which it stands with a word edge on both sides are the
pieces of the text that are equal to it. To replace it outside literals is to reword the text by
the spelling that changes the keyword alone, and the replacements are counted by the words outside
literals that are equal to the keyword.
-/

namespace Transcription.Replacement

open Text Literal

variable {policy : QuotePolicy} {k r : List Char}

/-- The spelling that writes `r` for the keyword `k` and keeps every other word. -/
def spelling (k r : List Char) (w : List Char) : List Char :=
  if w = k then r else w

@[simp] theorem spelling_self (k r : List Char) : spelling k r k = r := if_pos rfl

theorem spelling_of_ne {k w : List Char} (h : w ≠ k) (r : List Char) : spelling k r w = w :=
  if_neg h

/-- The context after a text holds the scanner's state after it. -/
theorem literal_foldl_extend (ctx : Context) (u : List Char) :
    (u.foldl (Context.extend policy) ctx).literal = run policy ctx.literal u := by
  induction u generalizing ctx with
  | nil => rfl
  | cons c cs ih => exact ih (Context.extend policy ctx c)

/-- What begins inert is free where no literal is open. -/
theorem isFree_append_of_inert {u : List Char} (hne : u ≠ [])
    (hu : u.all (isInert policy) = true) (s : State) (rest : List Char) :
    isFree policy s (u ++ rest) = !s.inside := by
  rw [isFree, List.head?_append_of_ne_nil _ hne, any_head?_covers_of_inert hne hu]

/-- Both ends of a word are word characters. -/
theorem any_head?_of_isWord {w : List Char} (h : isWord w = true) :
    w.head?.any isWordChar = true := by
  obtain ⟨c, cs, rfl⟩ := List.exists_cons_of_ne_nil (ne_nil_of_isWord h)
  exact isWordChar_of_mem h (by simp)

theorem any_getLast?_of_isWord {w : List Char} (h : isWord w = true) :
    w.getLast?.any isWordChar = true := by
  rw [List.getLast?_eq_some_getLast (ne_nil_of_isWord h)]
  exact isWordChar_of_mem h (List.getLast_mem _)

/-- A word stands whole where no word character is before it or after it. -/
theorem isWholeWord_append (hk : isWord k = true) (before : Option Char) (rest : List Char) :
    isWholeWord k before (k ++ rest) = (!before.any isWordChar && beginsApart rest) := by
  rw [isWholeWord, List.drop_left, isEdge, isEdge, any_head?_of_isWord hk,
    any_getLast?_of_isWord hk, beginsApart]
  cases before.any isWordChar <;> cases rest.head?.any isWordChar <;> rfl

/-- Within a word no keyword stands whole. -/
theorem matchesAt_of_word_before (hk : isWord k = true) {ctx : Context}
    (hb : ctx.before.any isWordChar = true) (text : List Char) :
    (ofKeyword policy k r).matchesAt ctx text = false := by
  have hedge : isEdge ctx.before k.head? = false := by
    rw [isEdge, any_head?_of_isWord hk, hb]
    rfl
  simp [Substitution.matchesAt, ofKeyword, isWholeWord, hedge]

/-- No keyword begins with a character that belongs to no word. -/
theorem matchesAt_cons_other (hk : isWord k = true) {c : Char} (hc : isWordChar c = false)
    (ctx : Context) (cs : List Char) :
    (ofKeyword policy k r).matchesAt ctx (c :: cs) = false := by
  obtain ⟨d, ds, rfl⟩ := List.exists_cons_of_ne_nil (ne_nil_of_isWord hk)
  have hd : isWordChar d = true := isWordChar_of_mem hk (by simp)
  have hne : d ≠ c := by
    rintro rfl
    rw [hc] at hd
    exact Bool.false_ne_true hd
  simp [Substitution.matchesAt, hne]

/-- At the beginning of a word the keyword matches when it is that word and no literal is open. -/
theorem matchesAt_word_append (policy : QuotePolicy) (r : List Char) (hk : isWord k = true)
    {w rest : List Char} (hw : isWord w = true) (hr : beginsApart rest = true) {ctx : Context}
    (hb : ctx.before.any isWordChar = false) :
    (ofKeyword policy k r).matchesAt ctx (w ++ rest) = (decide (w = k) && !ctx.literal.inside) := by
  have hfree : isFree policy ctx.literal (w ++ rest) = !ctx.literal.inside :=
    isFree_append_of_inert (ne_nil_of_isWord hw) (inert_of_isWord hw policy) ctx.literal rest
  by_cases hwk : w = k
  · subst hwk
    simp [Substitution.matchesAt, ofKeyword, isWholeWord_append hw, hb, hr, hfree]
  · -- another word does not begin with the keyword and an edge behind it
    rw [decide_eq_false hwk, Bool.false_and]
    refine Bool.eq_false_iff.mpr fun hm => hwk ?_
    obtain ⟨t, ht⟩ := Substitution.exists_eq_append_of_matchesAt hm
    rw [target_ofKeyword] at ht
    rw [ht, Substitution.matchesAt, Bool.and_eq_true] at hm
    have hwhole : isWholeWord k ctx.before (k ++ t) = true := (Bool.and_eq_true _ _ ▸ hm.2).1
    rw [isWholeWord_append hk, Bool.and_eq_true] at hwhole
    exact (word_append_inj hw hk hr hwhole.2 ht).1

/-- A walk that has read a word character copies the rest of the word. -/
theorem walk_within_word (policy : QuotePolicy) (r : List Char) (hk : isWord k = true)
    {ctx : Context} (hb : ctx.before.any isWordChar = true) {u : List Char}
    (hu : ∀ c ∈ u, isWordChar c = true) (rest : List Char) :
    let after := (ofKeyword policy k r).walk (u.foldl (Context.extend policy) ctx) 0 rest
    (ofKeyword policy k r).walk ctx 0 (u ++ rest) = ⟨u ++ after.text, after.count⟩ := by
  induction u generalizing ctx with
  | nil => rfl
  | cons c cs ih =>
      have hc : (Context.extend policy ctx c).before.any isWordChar = true := hu c (by simp)
      have htail := ih hc fun d hd => hu d (List.mem_cons_of_mem c hd)
      rw [List.cons_append, Substitution.walk_cons_of_not_matchesAt
        (matchesAt_of_word_before hk hb _)]
      exact congrArg (Rewritten.copy c) htail

/-- A walk copies a whole word at which the keyword does not match. -/
theorem walk_word_of_not_matchesAt (hk : isWord k = true) {w rest : List Char}
    (hw : isWord w = true) {ctx : Context}
    (hnot : (ofKeyword policy k r).matchesAt ctx (w ++ rest) = false) :
    let after := (ofKeyword policy k r).walk (w.foldl (Context.extend policy) ctx) 0 rest
    (ofKeyword policy k r).walk ctx 0 (w ++ rest) = ⟨w ++ after.text, after.count⟩ := by
  obtain ⟨c, cs, rfl⟩ := List.exists_cons_of_ne_nil (ne_nil_of_isWord hw)
  have hc : (Context.extend policy ctx c).before.any isWordChar = true :=
    isWordChar_of_mem hw (by simp)
  have htail := walk_within_word policy r hk hc
    (fun d hd => isWordChar_of_mem hw (List.mem_cons_of_mem c hd)) rest
  rw [List.cons_append] at hnot ⊢
  rw [Substitution.walk_cons_of_not_matchesAt hnot]
  exact congrArg (Rewritten.copy c) htail

/-- A walk rewords the text and counts the words that are equal to the keyword. -/
theorem walk_ofKeyword (hk : isWord k = true) (ctx : Context) (text : List Char)
    (hb : beginsApart text = false → ctx.before.any isWordChar = false) :
    (ofKeyword policy k r).walk ctx 0 text =
      ⟨reword policy (spelling k r) ctx.literal text,
        (freeWordsFrom policy ctx.literal text).count k⟩ := by
  induction text using word_induction generalizing ctx with
  | nil => simp
  | other c cs hc ih =>
      rw [Substitution.walk_cons_of_not_matchesAt (matchesAt_cons_other hk hc ctx cs),
        reword_cons_other hc, freeWordsFrom_cons_other hc]
      have htail := ih (Context.extend policy ctx c) fun _ => hc
      exact congrArg (Rewritten.copy c) htail
  | word w rest hw hr ih =>
      have hbefore : ctx.before.any isWordChar = false := hb (by
        rw [beginsApart, List.head?_append_of_ne_nil _ (ne_nil_of_isWord hw),
          any_head?_of_isWord hw]
        rfl)
      have hmatch := matchesAt_word_append policy r hk hw hr hbefore
      -- what follows the word begins apart, so only the scanner's state matters there
      have htail := ih (w.foldl (Context.extend policy) ctx) (by simp [hr])
      rw [literal_foldl_extend,
        run_of_inert (ne_nil_of_isWord hw) (inert_of_isWord hw policy)] at htail
      obtain ⟨before, ⟨inside, escaped⟩⟩ := ctx
      cases inside with
      | true =>
          rw [Bool.not_true, Bool.and_false] at hmatch
          rw [walk_word_of_not_matchesAt hk hw hmatch, htail, reword_word_inside hw hr,
            freeWordsFrom_word_inside hw hr]
      | false =>
          rw [Bool.not_false, Bool.and_true] at hmatch
          rw [reword_word_outside hw hr, freeWordsFrom_word_outside hw hr]
          by_cases hwk : w = k
          · subst hwk
            rw [decide_eq_true rfl] at hmatch
            rw [Substitution.walk_of_matchesAt (target_ofKeyword policy w r) (ne_nil_of_isWord hw)
              hmatch, spelling_self, List.count_cons_self]
            exact congrArg (Rewritten.replace r) htail
          · rw [decide_eq_false hwk] at hmatch
            rw [walk_word_of_not_matchesAt hk hw hmatch, htail, spelling_of_ne hwk,
              List.count_cons_of_ne hwk]

/-- To replace a word outside literals is to reword by the spelling of that word. -/
theorem rewrite_of_isWord (hk : isWord k = true) (policy : QuotePolicy) (r text : List Char) :
    rewrite policy k r text =
      ⟨reword policy (spelling k r) .start text, (freeWordsFrom policy .start text).count k⟩ := by
  rw [rewrite, Substitution.apply_of_target_ne_nil (ne_nil_of_isWord hk)]
  exact walk_ofKeyword hk .start text fun _ => rfl

end Transcription.Replacement
