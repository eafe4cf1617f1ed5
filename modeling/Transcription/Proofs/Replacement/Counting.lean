import Transcription.Proofs.Literal.Policies
import Transcription.Proofs.Replacement.Candidate

/-!
# Replacement by counting quotes

The counting heuristic knows of no literals. It takes a position to be inside one when the number of
double quotes to its left is odd, and replaces a keyword that stands as a whole word where that
number is even.

The naive policy goes by the literals of the text, and these have the heuristic's parity everywhere
but at their first quote: it belongs to the literal, and the number of quotes to its left is even. A
keyword that begins with a quote is therefore never replaced under the policy, while the heuristic
replaces it. All other keywords are replaced alike.
-/

namespace Transcription.Replacement

open Text Literal

/-- The heuristic replaces a keyword that begins `rest`, to the left of which `left` stands. -/
def IsCounted (keyword left rest : List Char) : Prop :=
  keyword ≠ [] ∧ keyword <+: rest ∧ isWholeWord keyword left.getLast? rest = true ∧
    Even (left.count '"')

instance (keyword left rest : List Char) : Decidable (IsCounted keyword left rest) :=
  inferInstanceAs (Decidable (_ ∧ _ ∧ _ ∧ _))

/-- Go over a text from the left and replace a keyword where the heuristic says so. Behind a keyword
that is replaced the pass goes on after it, elsewhere at the next character. -/
def countingPass (keyword replacement left : List Char) : List Char → Rewritten
  | [] => ⟨[], 0⟩
  | c :: cs =>
    if IsCounted keyword left (c :: cs) then
      (countingPass keyword replacement (left ++ keyword)
        ((c :: cs).drop keyword.length)).replace replacement
    else
      (countingPass keyword replacement (left ++ [c]) cs).copy c
termination_by rest => rest.length
decreasing_by
  · rename_i h
    have := List.length_pos_iff.mpr h.1
    simp only [List.length_drop, List.length_cons]
    omega
  · simp

/-- Replace a keyword by the counting heuristic, and count the replacements. -/
def replaceWordByCounting (text keyword replacement : String) : String × Nat :=
  let r := countingPass keyword.toList replacement.toList [] text.toList
  (String.ofList r.text, r.count)

variable {k r left rest : List Char}

/-- An empty keyword stands nowhere. -/
theorem countingPass_nil_keyword (r left rest : List Char) :
    countingPass [] r left rest = ⟨rest, 0⟩ := by
  induction rest generalizing left with
  | nil => rw [countingPass]
  | cons c cs ih =>
      have hnone : ¬ IsCounted [] left (c :: cs) := fun h => h.1 rfl
      rw [countingPass, if_neg hnone, ih]
      rfl

/-- Under the naive policy a character is free when it is no quote and the number of quotes before
it is even. -/
theorem covers_run_naive_eq_false_iff (left : List Char) (c : Char) :
    covers .naive (run .naive .start left) c = false ↔ Even (left.count '"') ∧ c ≠ '"' := by
  have hescaped := escaped_run_naive (s := .start) rfl left
  rw [covers, inside_step, hescaped, ← Nat.not_odd_iff_even, ← inside_run_naive_iff_odd]
  by_cases hq : c = '"' <;> cases (run .naive .start left).inside <;> simp [hq]

/-- The naive policy replaces a keyword where the heuristic does, unless it begins with a quote. -/
theorem matchesAt_naive_iff (hne : k ≠ []) :
    (ofKeyword .naive k r).matchesAt (left.foldl (Context.extend .naive) .start) rest = true ↔
      IsCounted k left rest ∧ k.head? ≠ some '"' := by
  have hfree (hbegins : k <+: rest) :
      isFree .naive (run .naive .start left) rest = true ↔
        Even (left.count '"') ∧ k.head? ≠ some '"' := by
    obtain ⟨after, rfl⟩ := hbegins
    obtain ⟨c, cs, rfl⟩ := List.exists_cons_of_ne_nil hne
    rw [isFree, List.cons_append, List.head?_cons, Option.any_some, Bool.not_eq_true',
      covers_run_naive_eq_false_iff, List.head?_cons]
    simp
  have hmatch : (ofKeyword .naive k r).matchesAt (left.foldl (Context.extend .naive) .start) rest =
      (k.isPrefixOf rest &&
        (isWholeWord k left.getLast? rest && isFree .naive (run .naive .start left) rest)) := by
    rw [← before_foldl_extend .naive left]
    exact congrArg (fun s => k.isPrefixOf rest && (isWholeWord k _ rest && isFree .naive s rest))
      (literal_foldl_extend .start left)
  rw [hmatch, Bool.and_eq_true, Bool.and_eq_true, List.isPrefixOf_iff_prefix, IsCounted,
    and_iff_right hne, and_assoc, and_assoc]
  exact and_congr_right fun hbegins => and_congr_right fun _ => hfree hbegins

/-- A keyword that begins with a quote is replaced nowhere. -/
theorem walk_naive_of_quote (hquote : k.head? = some '"') (r left rest : List Char) :
    (ofKeyword .naive k r).walk (left.foldl (Context.extend .naive) .start) 0 rest = ⟨rest, 0⟩ := by
  have hne : k ≠ [] := by
    rintro rfl
    simp at hquote
  induction rest generalizing left with
  | nil => simp
  | cons c cs ih =>
      have hnone : (ofKeyword .naive k r).matchesAt (left.foldl (Context.extend .naive) .start)
          (c :: cs) = false := by
        rw [Bool.eq_false_iff, Ne, matchesAt_naive_iff hne]
        exact fun h => h.2 hquote
      have hrest := ih (left ++ [c])
      rw [List.foldl_append] at hrest
      rw [Substitution.walk_cons_of_not_matchesAt hnone]
      exact congrArg (Rewritten.copy c) hrest

/-- A keyword that begins with another character is replaced by the pass of the heuristic. -/
theorem walk_naive (hne : k ≠ []) (hquote : k.head? ≠ some '"') (r left rest : List Char) :
    (ofKeyword .naive k r).walk (left.foldl (Context.extend .naive) .start) 0 rest =
      countingPass k r left rest := by
  fun_induction countingPass k r left rest with
  | case1 left => simp
  | case2 left c cs hcounted ih =>
      have hm : (ofKeyword .naive k r).matchesAt (left.foldl (Context.extend .naive) .start)
          (c :: cs) = true := (matchesAt_naive_iff hne).mpr ⟨hcounted, hquote⟩
      obtain ⟨after, hafter⟩ := hcounted.2.1
      rw [← hafter, List.drop_left] at ih ⊢
      rw [← hafter] at hm
      rw [List.foldl_append] at ih
      rw [Substitution.walk_of_matchesAt (target_ofKeyword _ _ _) hne hm, ← ih]
      rfl
  | case3 left c cs hcounted ih =>
      have hm : (ofKeyword .naive k r).matchesAt (left.foldl (Context.extend .naive) .start)
          (c :: cs) = false := by
        rw [Bool.eq_false_iff, Ne, matchesAt_naive_iff hne]
        exact fun h => hcounted h.1
      rw [List.foldl_append] at ih
      rw [Substitution.walk_cons_of_not_matchesAt hm, ← ih]
      rfl

/-- The naive policy replaces as the counting heuristic does, in text and count, unless the keyword
begins with a double quote: then it replaces nothing, because the first quote of a literal belongs
to the literal. -/
theorem replaceWordCounted_naive (text keyword replacement : String) :
    replaceWordCounted .naive text keyword replacement =
      if keyword.toList.head? = some '"' then (text, 0)
      else replaceWordByCounting text keyword replacement := by
  by_cases hne : keyword.toList = []
  · rw [replaceWordCounted, replaceWordByCounting, hne, countingPass_nil_keyword]
    simp
  · have hwalk : rewrite .naive keyword.toList replacement.toList text.toList =
        (ofKeyword .naive keyword.toList replacement.toList).walk .start 0 text.toList :=
      Substitution.apply_of_target_ne_nil hne _ _
    rw [replaceWordCounted, hwalk]
    by_cases hquote : keyword.toList.head? = some '"'
    · have hnone := walk_naive_of_quote hquote replacement.toList [] text.toList
      rw [List.foldl_nil] at hnone
      rw [if_pos hquote, hnone, String.ofList_toList]
    · have hpass := walk_naive hne hquote replacement.toList [] text.toList
      rw [List.foldl_nil] at hpass
      rw [if_neg hquote, hpass]
      rfl

/-- The heuristic replaces a double quote between letters that the naive policy keeps. -/
theorem replaceWordCounted_naive_quote_kept :
    replaceWordCounted .naive "a\"b" "\"" "x" = ("a\"b", 0) ∧
      replaceWordByCounting "a\"b" "\"" "x" = ("axb", 1) := by
  refine ⟨by decide, ?_⟩
  have hletter : ¬ IsCounted ['"'] [] ['a', '"', 'b'] := by decide
  have hquote : IsCounted ['"'] ['a'] ['"', 'b'] := by decide
  have hlast : ¬ IsCounted ['"'] ['a', '"'] ['b'] := by decide
  have hpass : countingPass ['"'] ['x'] [] ['a', '"', 'b'] = ⟨['a', 'x', 'b'], 1⟩ := by
    rw [countingPass, if_neg hletter, List.nil_append, countingPass, if_pos hquote]
    change ((countingPass ['"'] ['x'] ['a', '"'] ['b']).replace ['x']).copy 'a' = _
    rw [countingPass, if_neg hlast, countingPass]
    rfl
  exact congrArg (fun r : Rewritten => (String.ofList r.text, r.count)) hpass

end Transcription.Replacement
