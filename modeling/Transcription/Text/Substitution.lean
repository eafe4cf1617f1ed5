/-!
# Left-to-right substitution

A substitution walks over a text once. Where its target stands and the position is admitted, the
target is replaced, and the walk goes on after it; elsewhere one character is copied. What a
position may depend on is the text from there on and a context of the text before it, which is
extended by one character at a time. The context describes the text that is read and never the
text that is written: a replacement is not read again, and it changes nothing to its right.

Chosen positions do not overlap and each is the leftmost admitted one after the previous choice,
since the walk looks at every position that no earlier choice covers.
-/

namespace Transcription.Text

/-- A target, what replaces it, and the rule that says where it is replaced. -/
structure Substitution (σ : Type) where
  target : List Char
  replacement : List Char
  /-- The context after one more character. -/
  extend : σ → Char → σ
  /-- Whether an occurrence of the target may be replaced here, from the context of the text
  before it and the text that begins with it. -/
  admits : σ → List Char → Bool

/-- A text with the number of places at which it was changed. -/
structure Rewritten where
  text : List Char
  count : Nat
  deriving Repr, DecidableEq

namespace Rewritten

/-- Put one copied character in front. -/
def copy (c : Char) (r : Rewritten) : Rewritten :=
  ⟨c :: r.text, r.count⟩

/-- Put one replacement in front. -/
def replace (replacement : List Char) (r : Rewritten) : Rewritten :=
  ⟨replacement ++ r.text, r.count + 1⟩

@[simp] theorem text_copy (c : Char) (r : Rewritten) : (r.copy c).text = c :: r.text := rfl
@[simp] theorem count_copy (c : Char) (r : Rewritten) : (r.copy c).count = r.count := rfl
@[simp] theorem text_replace (w : List Char) (r : Rewritten) :
    (r.replace w).text = w ++ r.text := rfl
@[simp] theorem count_replace (w : List Char) (r : Rewritten) :
    (r.replace w).count = r.count + 1 := rfl

end Rewritten

namespace Substitution

variable {σ : Type}

/-- Whether the target stands at the beginning of `rest` and is to be replaced there. -/
def matchesAt (s : Substitution σ) (ctx : σ) (rest : List Char) : Bool :=
  s.target.isPrefixOf rest && s.admits ctx rest

/-- Walk over a text of which `skip` more characters belong to a target already replaced. -/
def walk (s : Substitution σ) (ctx : σ) : (skip : Nat) → List Char → Rewritten
  | _, [] => ⟨[], 0⟩
  | skip + 1, c :: cs => s.walk (s.extend ctx c) skip cs
  | 0, c :: cs =>
    if s.matchesAt ctx (c :: cs) then
      (s.walk (s.extend ctx c) (s.target.length - 1) cs).replace s.replacement
    else
      (s.walk (s.extend ctx c) 0 cs).copy c

/-- Apply a substitution to a whole text whose left side has the context `start`. An empty
target stands nowhere. -/
def apply (s : Substitution σ) (start : σ) (text : List Char) : Rewritten :=
  if s.target.isEmpty then ⟨text, 0⟩ else s.walk start 0 text

@[simp] theorem walk_nil (s : Substitution σ) (ctx : σ) (skip : Nat) :
    s.walk ctx skip [] = ⟨[], 0⟩ := by
  cases skip <;> rfl

@[simp] theorem apply_nil (s : Substitution σ) (start : σ) : s.apply start [] = ⟨[], 0⟩ := by
  simp [apply]

theorem apply_of_target_eq_nil {s : Substitution σ} (h : s.target = []) (start : σ)
    (text : List Char) : s.apply start text = ⟨text, 0⟩ := by
  simp [apply, h]

theorem apply_of_target_ne_nil {s : Substitution σ} (h : s.target ≠ []) (start : σ)
    (text : List Char) : s.apply start text = s.walk start 0 text := by
  simp [apply, h]

/-- A walk that replaces nothing copies its text. -/
theorem text_walk_of_count_eq_zero (s : Substitution σ) (ctx : σ) (text : List Char)
    (h : (s.walk ctx 0 text).count = 0) : (s.walk ctx 0 text).text = text := by
  induction text generalizing ctx with
  | nil => simp
  | cons c cs ih =>
    rw [walk] at h ⊢
    split at h
    · simp at h
    · next hm =>
      simp only [Rewritten.count_copy] at h
      simp [hm, ih _ h]

/-- An application that replaces nothing leaves the text as it is. -/
theorem text_apply_of_count_eq_zero (s : Substitution σ) (start : σ) (text : List Char)
    (h : (s.apply start text).count = 0) : (s.apply start text).text = text := by
  unfold apply at h ⊢
  split
  · rfl
  · next ht =>
    rw [if_neg ht] at h
    exact s.text_walk_of_count_eq_zero start text h

end Substitution

end Transcription.Text
