import Transcription.Proofs.Text.Walk
import Mathlib.Data.String.Basic

/-!
# Measures of a text

A measure adds up along a text, as its length does or the weights of its characters. A substitution
keeps what it does not replace, so the texts before it and after it have a common part, and beside
it one target or one replacement for each place. What is asked of a substitution's effect on a
measure is therefore asked of its target and its replacement.
-/

namespace Transcription.Text

/-- A number for every text that adds up along it. -/
def IsMeasure (μ : List Char → Nat) : Prop :=
  ∀ a b, μ (a ++ b) = μ a + μ b

namespace IsMeasure

variable {μ : List Char → Nat}

theorem append (h : IsMeasure μ) (a b : List Char) : μ (a ++ b) = μ a + μ b := h a b

theorem cons (h : IsMeasure μ) (c : Char) (cs : List Char) : μ (c :: cs) = μ [c] + μ cs :=
  h [c] cs

theorem nil (h : IsMeasure μ) : μ [] = 0 := by
  have hnil : μ [] = μ [] + μ [] := h [] []
  omega

end IsMeasure

theorem isMeasure_length : IsMeasure List.length := fun _ _ => List.length_append

/-- Every character has a byte at least. -/
theorem length_le_utf8Len (text : List Char) : text.length ≤ String.utf8Len text := by
  induction text with
  | nil => exact Nat.le_refl 0
  | cons c cs ih =>
      have hc := c.utf8Size_pos
      rw [List.length_cons, String.utf8Len_cons]
      omega

/-- The weights of a text's characters together. -/
def weigh (weight : Char → Nat) : List Char → Nat
  | [] => 0
  | c :: cs => weight c + weigh weight cs

theorem isMeasure_weigh (weight : Char → Nat) : IsMeasure (weigh weight) := by
  intro a b
  induction a with
  | nil => simp [weigh]
  | cons c cs ih =>
      rw [List.cons_append, weigh, weigh, ih]
      omega

/-- Where no character weighs more than a bound, a text weighs no more than the bound for each. -/
theorem weigh_le {weight : Char → Nat} {bound : Nat} (h : ∀ c, weight c ≤ bound)
    (text : List Char) : weigh weight text ≤ bound * text.length := by
  induction text with
  | nil => simp [weigh]
  | cons c cs ih =>
      have hc := h c
      rw [weigh, List.length_cons, Nat.mul_succ]
      omega

namespace Substitution

variable {σ : Type} {s : Substitution σ} {μ : List Char → Nat}

/-- The text that is read and the text that is written have a common part; beside it the one has a
target, and the other a replacement, for each place. -/
theorem exists_common_walk (hμ : IsMeasure μ) (hne : s.target ≠ []) (ctx : σ)
    (text : List Char) : ∃ common,
      μ text = common + (s.walk ctx 0 text).count * μ s.target ∧
      μ (s.walk ctx 0 text).text = common + (s.walk ctx 0 text).count * μ s.replacement := by
  induction ctx, text using walk_induction (s := s) hne with
  | nil ctx => exact ⟨0, by simp [hμ.nil], by simp [hμ.nil]⟩
  | replace ctx rest hm ih =>
      obtain ⟨common, hread, hwritten⟩ := ih
      refine ⟨common, ?_, ?_⟩
      · rw [walk_of_matchesAt rfl hne hm, Rewritten.count_replace, hμ.append, hread,
          Nat.succ_mul]
        omega
      · rw [walk_of_matchesAt rfl hne hm, Rewritten.count_replace, Rewritten.text_replace,
          hμ.append, hwritten, Nat.succ_mul]
        omega
  | copy ctx c cs hm ih =>
      obtain ⟨common, hread, hwritten⟩ := ih
      refine ⟨μ [c] + common, ?_, ?_⟩
      · rw [walk_cons_of_not_matchesAt hm, Rewritten.count_copy, hμ.cons, hread]
        omega
      · rw [walk_cons_of_not_matchesAt hm, Rewritten.count_copy, Rewritten.text_copy, hμ.cons,
          hwritten]
        omega

theorem exists_common (hμ : IsMeasure μ) (start : σ) (text : List Char) : ∃ common,
    μ text = common + (s.apply start text).count * μ s.target ∧
    μ (s.apply start text).text = common + (s.apply start text).count * μ s.replacement := by
  by_cases hne : s.target = []
  · rw [apply_of_target_eq_nil hne]
    exact ⟨μ text, by simp, by simp⟩
  · rw [apply_of_target_ne_nil hne]
    exact exists_common_walk hμ hne start text

/-- The places do not overlap, so the text has the measure of all of them. -/
theorem count_mul_le (hμ : IsMeasure μ) (start : σ) (text : List Char) :
    (s.apply start text).count * μ s.target ≤ μ text := by
  obtain ⟨common, hread, -⟩ := exists_common (s := s) hμ start text
  omega

/-- A replacement that measures no more than the target makes no text measure more. -/
theorem measure_apply_le (hμ : IsMeasure μ) (h : μ s.replacement ≤ μ s.target) (start : σ)
    (text : List Char) : μ (s.apply start text).text ≤ μ text := by
  obtain ⟨common, hread, hwritten⟩ := exists_common (s := s) hμ start text
  have hplaces := Nat.mul_le_mul_left (s.apply start text).count h
  omega

/-- A replacement that measures less than the target makes a text measure less when it has a
place. -/
theorem measure_apply_lt (hμ : IsMeasure μ) (h : μ s.replacement < μ s.target) {start : σ}
    {text : List Char} (hcount : 0 < (s.apply start text).count) :
    μ (s.apply start text).text < μ text := by
  obtain ⟨common, hread, hwritten⟩ := exists_common (s := s) hμ start text
  have hplaces := Nat.mul_lt_mul_of_pos_left h hcount
  omega

/-- A walk that writes the target in its own place writes the text that it reads. -/
theorem text_walk_of_replacement_eq_target (hne : s.target ≠ []) (h : s.replacement = s.target)
    (ctx : σ) (text : List Char) : (s.walk ctx 0 text).text = text := by
  induction ctx, text using walk_induction (s := s) hne with
  | nil ctx => simp
  | replace ctx rest hm ih =>
      rw [walk_of_matchesAt rfl hne hm, Rewritten.text_replace, ih, h]
  | copy ctx c cs hm ih =>
      rw [walk_cons_of_not_matchesAt hm, Rewritten.text_copy, ih]

/-- A replacement as long as the target is seen in the text unless it is the target. -/
theorem replacement_eq_target_of_text_walk (hne : s.target ≠ [])
    (hlength : s.replacement.length = s.target.length) {ctx : σ} {text : List Char}
    (hcount : 0 < (s.walk ctx 0 text).count) (h : (s.walk ctx 0 text).text = text) :
    s.replacement = s.target := by
  induction ctx, text using walk_induction (s := s) hne with
  | nil ctx => simp at hcount
  | replace ctx rest hm ih =>
      rw [walk_of_matchesAt rfl hne hm, Rewritten.text_replace] at h
      exact (List.append_inj h hlength).1
  | copy ctx c cs hm ih =>
      rw [walk_cons_of_not_matchesAt hm] at hcount h
      exact ih hcount (List.cons.inj h).2

/-- A substitution gives a text back just when it finds no place in it, or writes what stands there
anyway. -/
theorem text_apply_eq_iff (start : σ) (text : List Char) :
    (s.apply start text).text = text ↔
      (s.apply start text).count = 0 ∨ s.replacement = s.target := by
  constructor
  · intro h
    by_cases hcount : (s.apply start text).count = 0
    · exact .inl hcount
    · right
      have hne : s.target ≠ [] := by
        intro hnil
        rw [apply_of_target_eq_nil hnil] at hcount
        exact hcount rfl
      have hpos := Nat.pos_of_ne_zero hcount
      -- the lengths agree on both sides, so replacement and target are equally long
      have hlength : s.replacement.length = s.target.length := by
        obtain ⟨common, hread, hwritten⟩ := exists_common (s := s) isMeasure_length start text
        rw [h] at hwritten
        exact Nat.eq_of_mul_eq_mul_left hpos (Nat.add_left_cancel (hwritten.symm.trans hread))
      rw [apply_of_target_ne_nil hne] at hpos h
      exact replacement_eq_target_of_text_walk hne hlength hpos h
  · rintro (hcount | heq)
    · exact s.text_apply_of_count_eq_zero start text hcount
    · by_cases hne : s.target = []
      · rw [apply_of_target_eq_nil hne]
      · rw [apply_of_target_ne_nil hne]
        exact text_walk_of_replacement_eq_target hne heq start text

end Substitution

end Transcription.Text
