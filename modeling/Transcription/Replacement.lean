import Transcription.Literal
import Transcription.Text.Substitution
import Transcription.Text.Word

/-!
# Whole-word replacement outside literals

A keyword is replaced where it stands as a whole word and its first character belongs to no
string literal. Both conditions are judged on the text as it is given: a replacement neither makes
nor breaks a word edge and neither opens nor closes a literal for what follows.

A keyword may hold any characters. It stands as a whole word when there is a word edge at either
end of it, so a keyword that begins with a sign needs a word character to its left.
-/

namespace Transcription

open Text

namespace Replacement

/-- What the decision at a position needs to know of the text to its left. -/
structure Context where
  before : Option Char
  literal : Literal.State
  deriving Repr, DecidableEq

/-- Nothing stands to the left. -/
def Context.start : Context := ⟨none, .start⟩

/-- The context one character further. -/
def Context.extend (policy : QuotePolicy) (ctx : Context) (c : Char) : Context :=
  ⟨some c, Literal.step policy ctx.literal c⟩

/-- Whether the keyword at the beginning of `rest` has a word edge on both sides. -/
def isWholeWord (keyword : List Char) (before : Option Char) (rest : List Char) : Bool :=
  isEdge before keyword.head? &&
    isEdge keyword.getLast? (rest.drop keyword.length).head?

/-- Whether the first character of `rest` belongs to no literal. -/
def isFree (policy : QuotePolicy) (literal : Literal.State) (rest : List Char) : Bool :=
  !rest.head?.any (Literal.covers policy literal)

/-- The substitution that replaces one keyword. -/
def ofKeyword (policy : QuotePolicy) (keyword replacement : List Char) : Substitution Context where
  target := keyword
  replacement := replacement
  extend := Context.extend policy
  admits ctx rest := isWholeWord keyword ctx.before rest && isFree policy ctx.literal rest

@[simp] theorem target_ofKeyword (policy : QuotePolicy) (k r : List Char) :
    (ofKeyword policy k r).target = k := rfl

@[simp] theorem replacement_ofKeyword (policy : QuotePolicy) (k r : List Char) :
    (ofKeyword policy k r).replacement = r := rfl

/-- Replace a keyword in a list of characters. -/
def rewrite (policy : QuotePolicy) (keyword replacement text : List Char) : Rewritten :=
  (ofKeyword policy keyword replacement).apply .start text

/-- An empty keyword stands nowhere. -/
@[simp] theorem rewrite_nil_keyword (policy : QuotePolicy) (replacement text : List Char) :
    rewrite policy [] replacement text = ⟨text, 0⟩ :=
  Substitution.apply_of_target_eq_nil rfl _ _

@[simp] theorem rewrite_nil_text (policy : QuotePolicy) (keyword replacement : List Char) :
    rewrite policy keyword replacement [] = ⟨[], 0⟩ := by
  simp [rewrite]

/-- A pass that replaces nothing changes nothing. -/
theorem text_rewrite_of_count_eq_zero {policy : QuotePolicy} {keyword replacement text : List Char}
    (h : (rewrite policy keyword replacement text).count = 0) :
    (rewrite policy keyword replacement text).text = text :=
  Substitution.text_apply_of_count_eq_zero _ _ _ h

end Replacement

/-- Replace a keyword wherever it stands as a whole word outside literals, and count the
replacements. -/
def replaceWordCounted (policy : QuotePolicy) (text keyword replacement : String) :
    String × Nat :=
  let r := Replacement.rewrite policy keyword.toList replacement.toList text.toList
  (String.ofList r.text, r.count)

/-- Replace a keyword wherever it stands as a whole word outside literals. -/
def replaceWord (policy : QuotePolicy) (text keyword replacement : String) : String :=
  (replaceWordCounted policy text keyword replacement).1

@[simp] theorem toList_replaceWord (policy : QuotePolicy) (text keyword replacement : String) :
    (replaceWord policy text keyword replacement).toList =
      (Replacement.rewrite policy keyword.toList replacement.toList text.toList).text := by
  simp [replaceWord, replaceWordCounted]

end Transcription
