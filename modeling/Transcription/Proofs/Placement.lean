import Transcription.Placement
import Transcription.Proofs.Text.Walk

/-!
# Placing a pattern

A pattern is looked for without regard to what stands before it, so a placement is told by two
equations: a pattern at the beginning of a text is rewritten and passed over, and where none
begins the first character is copied.
-/

namespace Transcription.Placement

open Text

variable {pattern : List Char}

theorem toList_marker : marker.toList = ['\x7b', '\x7d'] := rfl

theorem toList_canonical : canonical.toList = ['$', '\x7b', '\x7d'] := rfl

theorem canonical_ne_nil : canonical.toList ≠ [] := by
  simp [toList_canonical]

/-- A text with the canonical placeholder in place of each pattern, from left to right. -/
def placed (pattern text : List Char) : List Char :=
  ((ofPattern pattern).walk () 0 text).text

@[simp] theorem placed_nil (pattern : List Char) : placed pattern [] = [] := by
  simp [placed]

theorem matchesAt_ofPattern_iff {text : List Char} :
    (ofPattern pattern).matchesAt () text = true ↔ pattern <+: text := by
  rw [Substitution.matchesAt, target_ofPattern, Bool.and_eq_true, List.isPrefixOf_iff_prefix]
  exact and_iff_left rfl

theorem placed_pattern_append (hne : pattern ≠ []) (rest : List Char) :
    placed pattern (pattern ++ rest) = canonical.toList ++ placed pattern rest := by
  have hmatch : (ofPattern pattern).matchesAt () (pattern ++ rest) = true :=
    matchesAt_ofPattern_iff.mpr (List.prefix_append pattern rest)
  rw [placed, Substitution.walk_of_matchesAt (target_ofPattern pattern) hne hmatch]
  rfl

theorem placed_cons_of_no_match {c : Char} {cs : List Char} (h : ¬ pattern <+: c :: cs) :
    placed pattern (c :: cs) = c :: placed pattern cs := by
  have hmatch : (ofPattern pattern).matchesAt () (c :: cs) = false := by
    rw [Bool.eq_false_iff, Ne, matchesAt_ofPattern_iff]
    exact h
  rw [placed, Substitution.walk_cons_of_not_matchesAt hmatch]
  rfl

/-- A pattern that does not begin a text begins no beginning of it. -/
theorem placed_cons_of_beginning {first cs : List Char} {c : Char}
    (hnot : ¬ pattern <+: c :: cs) (hfirst : first <+: cs) :
    placed pattern (c :: first) = c :: placed pattern first := by
  refine placed_cons_of_no_match fun h => hnot ?_
  exact h.trans (List.cons_prefix_cons.mpr ⟨rfl, hfirst⟩)

/-- A text is empty, begins with the pattern, or begins with a character at which no pattern
stands. -/
@[elab_as_elim]
theorem placed_induction (hne : pattern ≠ []) {motive : List Char → Prop} (nil : motive [])
    (replace : ∀ rest, motive rest → motive (pattern ++ rest))
    (copy : ∀ c cs, ¬ pattern <+: c :: cs → motive cs → motive (c :: cs))
    (text : List Char) : motive text := by
  refine Substitution.walk_induction (s := ofPattern pattern) hne (fun _ => nil)
    (fun _ rest _ ih => replace rest ih) (fun _ c cs hnot ih => copy c cs ?_ ih) () text
  rw [← matchesAt_ofPattern_iff, hnot]
  exact Bool.false_ne_true

/-- An annotated placeholder holds the marker and the symbol, one after the other. -/
theorem toList_annotated (symbol : String) :
    (annotated symbol).toList = marker.toList ++ symbol.toList ∨
      (annotated symbol).toList = symbol.toList ++ marker.toList := by
  cases hs : ofSymbol symbol with
  | leftside => exact .inr (by rw [annotated, hs, String.toList_append])
  | rightside => exact .inl (by rw [annotated, hs, String.toList_append])

theorem annotated_ne_nil (symbol : String) : (annotated symbol).toList ≠ [] := by
  have hmarker : marker.toList ≠ [] := by simp [toList_marker]
  rcases toList_annotated symbol with h | h
  · rw [h]
    exact List.append_ne_nil_of_left_ne_nil hmarker _
  · rw [h]
    exact List.append_ne_nil_of_right_ne_nil _ hmarker

theorem mem_annotated {symbol : String} {c : Char} (h : c ∈ (annotated symbol).toList) :
    c ∈ marker.toList ∨ c ∈ symbol.toList := by
  rcases toList_annotated symbol with hs | hs
  · rw [hs] at h
    exact List.mem_append.mp h
  · rw [hs] at h
    exact (List.mem_append.mp h).symm

/-- A symbol that is not blank is placed by its annotated placeholder. -/
theorem toList_placeCurrency_of_not_blank {symbol : String}
    (h : isBlankString symbol = false) (text : String) :
    (placeCurrency text symbol).toList = placed (annotated symbol).toList text.toList := by
  have htarget : (ofPattern (annotated symbol).toList).target ≠ [] := by
    rw [target_ofPattern]
    exact annotated_ne_nil symbol
  rw [toList_placeCurrency, rewrite, h, if_neg Bool.false_ne_true,
    Substitution.apply_of_target_ne_nil htarget, placed]

end Transcription.Placement
