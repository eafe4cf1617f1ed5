import Transcription.Text.Substitution

/-!
# Steps of a substitution walk

A walk takes two kinds of step. At a chosen position the target is consumed and its replacement
written; at any other position one character is copied. `walk_induction` follows these steps, so a
property of walks is proved for the two of them and for the empty text. Where no position is
refused, the walk replaces every occurrence of its target.
-/

namespace Transcription.Text.Substitution

variable {σ : Type} (s : Substitution σ)

/-- The characters that a walk skips are read but not written. -/
theorem walk_skip (ctx : σ) (u rest : List Char) :
    s.walk ctx u.length (u ++ rest) = s.walk (u.foldl s.extend ctx) 0 rest := by
  induction u generalizing ctx with
  | nil => rfl
  | cons c cs ih => exact ih (s.extend ctx c)

variable {s}

/-- A match begins with the target. -/
theorem exists_eq_append_of_matchesAt {ctx : σ} {text : List Char}
    (h : s.matchesAt ctx text = true) : ∃ rest, text = s.target ++ rest := by
  rw [matchesAt, Bool.and_eq_true] at h
  obtain ⟨rest, hrest⟩ := List.isPrefixOf_iff_prefix.mp h.1
  exact ⟨rest, hrest.symm⟩

/-- The walk writes the replacement for a match and goes on behind the target. -/
theorem walk_of_matchesAt {ctx : σ} {target rest : List Char} (htarget : s.target = target)
    (hne : target ≠ []) (h : s.matchesAt ctx (target ++ rest) = true) :
    s.walk ctx 0 (target ++ rest) =
      (s.walk (target.foldl s.extend ctx) 0 rest).replace s.replacement := by
  obtain ⟨c, cs, rfl⟩ := List.exists_cons_of_ne_nil hne
  rw [List.cons_append] at h ⊢
  rw [walk, if_pos h, htarget, List.length_cons, Nat.add_sub_cancel, s.walk_skip, List.foldl_cons]

/-- The walk copies a character at which nothing matches. -/
theorem walk_cons_of_not_matchesAt {ctx : σ} {c : Char} {cs : List Char}
    (h : s.matchesAt ctx (c :: cs) = false) :
    s.walk ctx 0 (c :: cs) = (s.walk (s.extend ctx c) 0 cs).copy c := by
  rw [walk, h]
  rfl

/-- A walk ends, replaces a match, or copies a character. -/
@[elab_as_elim]
theorem walk_induction (hne : s.target ≠ []) {motive : σ → List Char → Prop}
    (nil : ∀ ctx, motive ctx [])
    (replace : ∀ ctx rest, s.matchesAt ctx (s.target ++ rest) = true →
      motive (s.target.foldl s.extend ctx) rest → motive ctx (s.target ++ rest))
    (copy : ∀ ctx c cs, s.matchesAt ctx (c :: cs) = false → motive (s.extend ctx c) cs →
      motive ctx (c :: cs))
    (ctx : σ) (text : List Char) : motive ctx text := by
  -- every step consumes a character, since the target is not empty
  suffices h : ∀ n, ∀ t : List Char, t.length ≤ n → ∀ ctx, motive ctx t from
    h _ text (Nat.le_refl _) ctx
  intro n
  induction n with
  | zero =>
      intro t ht ctx
      rw [List.length_eq_zero_iff.mp (Nat.le_zero.mp ht)]
      exact nil ctx
  | succ n ih =>
      intro t ht ctx
      cases t with
      | nil => exact nil ctx
      | cons c cs =>
          by_cases hm : s.matchesAt ctx (c :: cs) = true
          · obtain ⟨rest, hrest⟩ := exists_eq_append_of_matchesAt hm
            have hpos := List.length_pos_iff.mpr hne
            rw [hrest] at hm ht ⊢
            rw [List.length_append] at ht
            exact replace ctx rest hm (ih rest (by omega) _)
          · rw [List.length_cons] at ht
            exact copy ctx c cs (by simpa using hm) (ih cs (by omega) _)

theorem intercalate_cons_left (separator part : List Char) (c : Char) (parts : List (List Char)) :
    separator.intercalate ((c :: part) :: parts) = c :: separator.intercalate (part :: parts) := by
  cases parts <;> simp

theorem isPrefix_intercalate (separator part : List Char) (parts : List (List Char)) :
    part <+: separator.intercalate (part :: parts) := by
  cases parts <;> simp

/-- A walk that admits every position puts the replacement between the parts of the text that lie
between the occurrences of the target. -/
theorem exists_parts_walk (hne : s.target ≠ []) (hadmits : ∀ ctx rest, s.admits ctx rest = true)
    (ctx : σ) (text : List Char) : ∃ part parts,
      text = s.target.intercalate (part :: parts) ∧
      (s.walk ctx 0 text).text = s.replacement.intercalate (part :: parts) ∧
      ∀ p ∈ part :: parts, ¬ s.target <:+: p := by
  induction ctx, text using walk_induction (s := s) hne with
  | nil ctx =>
      refine ⟨[], [], by simp, by simp, ?_⟩
      simpa using hne
  | replace ctx rest hm ih =>
      obtain ⟨part, parts, htext, hwalk, hparts⟩ := ih
      refine ⟨[], part :: parts, ?_, ?_, ?_⟩
      · rw [List.intercalate_cons_cons, List.nil_append, ← htext]
      · rw [walk_of_matchesAt rfl hne hm, Rewritten.text_replace, hwalk,
          List.intercalate_cons_cons, List.nil_append]
      · intro p hp
        obtain rfl | hp := List.mem_cons.mp hp
        · simpa using hne
        · exact hparts p hp
  | copy ctx c cs hm ih =>
      obtain ⟨part, parts, htext, hwalk, hparts⟩ := ih
      refine ⟨c :: part, parts, ?_, ?_, ?_⟩
      · rw [intercalate_cons_left, ← htext]
      · rw [walk_cons_of_not_matchesAt hm, Rewritten.text_copy, hwalk, intercalate_cons_left]
      · intro p hp
        obtain rfl | hp := List.mem_cons.mp hp
        · intro hinfix
          obtain hbegins | hinfix := List.infix_cons_iff.mp hinfix
          · -- an occurrence at the beginning of the part would have been replaced
            have hpart : c :: part <+: c :: cs := by
              rw [List.cons_prefix_cons, htext]
              exact ⟨rfl, isPrefix_intercalate s.target part parts⟩
            have hmatch : s.matchesAt ctx (c :: cs) = true := by
              rw [matchesAt, hadmits, Bool.and_true, List.isPrefixOf_iff_prefix]
              exact hbegins.trans hpart
            exact Bool.noConfusion (hm.symm.trans hmatch)
          · exact hparts part List.mem_cons_self hinfix
        · exact hparts p (List.mem_cons_of_mem part hp)

end Transcription.Text.Substitution
