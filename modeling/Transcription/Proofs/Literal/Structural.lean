import Transcription.Proofs.Literal.Mask
import Transcription.Proofs.Text.Offset
import Mathlib.Algebra.Ring.Parity
import Mathlib.Data.Nat.Count

/-!
# Structural quotes

A double quote is structural when it opens or closes a literal. Which quotes are structural can be
seen from the text to their left: under the naive policy all of them, and under the escape-aware one
those with an even run of backslashes before them. The literals of a text are determined by its
structural quotes. Inside and outside take turns at them, so the scanner is inside a literal after
an odd number of structural quotes, and a byte is protected when it is a structural quote or stands
behind an odd number of them.
-/

namespace Transcription.Literal

open Text

variable {policy : QuotePolicy} {text : String}

/-- A double quote stands at an offset of a text, and the policy counts it: the maximal run of
backslashes before it is even, or the policy looks at no backslash. -/
def IsStructuralAt (policy : QuotePolicy) (text : String) (q : Nat) : Prop :=
  ∃ before after, text.toList = before ++ '"' :: after ∧ String.utf8Len before = q ∧
    (policy = .naive ∨ Even (backslashRun before))

instance (policy : QuotePolicy) (text : String) : DecidablePred (IsStructuralAt policy text) :=
  fun _ => decidable_of_iff _ exists_cut_iff_getElem?.symm

/-- A character is a structural quote when it is a quote and the scanner does not pass over it. -/
theorem isStructuralAt_utf8Len_iff {pre post : List Char} {c : Char}
    (htext : text.toList = pre ++ c :: post) :
    IsStructuralAt policy text (String.utf8Len pre) ↔
      c = '"' ∧ (run policy .start pre).escaped = false := by
  rw [escaped_run_eq_false_iff]
  constructor
  · rintro ⟨before, after, hsplit, heq, hcounts⟩
    obtain ⟨rfl, hrest⟩ := append_inj_of_utf8Len_eq (htext.symm.trans hsplit) heq.symm
    exact ⟨(List.cons.inj hrest).1, hcounts⟩
  · rintro ⟨rfl, hcounts⟩
    exact ⟨pre, post, htext, rfl, hcounts⟩

/-- Within a character no quote begins. -/
theorem not_isStructuralAt_within {pre post : List Char} {c : Char}
    (htext : text.toList = pre ++ c :: post) {q : Nat} (hlo : String.utf8Len pre < q)
    (hhi : q < String.utf8Len pre + c.utf8Size) : ¬ IsStructuralAt policy text q := by
  rintro ⟨before, after, hsplit, rfl, -⟩
  have hcut := utf8Len_add_utf8Size_le (htext.symm.trans hsplit) hlo
  omega

/-- The first byte of a structural quote is its last one. -/
theorem IsStructuralAt.utf8Size_eq {pre post : List Char} {c : Char}
    (htext : text.toList = pre ++ c :: post)
    (h : IsStructuralAt policy text (String.utf8Len pre)) : c.utf8Size = 1 := by
  obtain ⟨rfl, -⟩ := (isStructuralAt_utf8Len_iff htext).mp h
  rfl

/-- Behind the first byte of a character the count has moved by that character alone. -/
theorem count_isStructuralAt_within {pre post : List Char} {c : Char}
    (htext : text.toList = pre ++ c :: post) {q : Nat} (hlo : String.utf8Len pre < q)
    (hhi : q ≤ String.utf8Len pre + c.utf8Size) :
    Nat.count (IsStructuralAt policy text) q =
      Nat.count (IsStructuralAt policy text) (String.utf8Len pre) +
        if IsStructuralAt policy text (String.utf8Len pre) then 1 else 0 := by
  induction q, hlo using Nat.le_induction with
  | base => exact Nat.count_succ _ _
  | succ q hq ih =>
      have hnone : ¬ IsStructuralAt policy text q :=
        not_isStructuralAt_within htext hq (by omega)
      rw [Nat.count_succ, if_neg hnone]
      exact ih (by omega)

/-- A structural quote takes the scanner into a literal or out of it, and nothing else does. -/
theorem inside_run_concat {pre post : List Char} {c : Char}
    (htext : text.toList = pre ++ c :: post) :
    (run policy .start (pre ++ [c])).inside =
      ((run policy .start pre).inside ^^
        decide (IsStructuralAt policy text (String.utf8Len pre))) := by
  rw [run_append, run_cons, run_nil, inside_step]
  congr 1
  rw [Bool.eq_iff_iff, decide_eq_true_iff, isStructuralAt_utf8Len_iff htext]
  simp

/-- The scanner is inside a literal after an odd number of structural quotes. -/
theorem inside_run_iff_odd {pre post : List Char} (htext : text.toList = pre ++ post) :
    (run policy .start pre).inside = true ↔
      Odd (Nat.count (IsStructuralAt policy text) (String.utf8Len pre)) := by
  induction pre using List.reverseRecOn generalizing post with
  | nil => simp [State.start]
  | append_singleton pre c ih =>
      have hsplit : text.toList = pre ++ c :: post := by simp [htext]
      have hsize := c.utf8Size_pos
      have hlen : String.utf8Len (pre ++ [c]) = String.utf8Len pre + c.utf8Size := by simp
      rw [inside_run_concat hsplit, hlen, count_isStructuralAt_within hsplit (by omega) le_rfl]
      by_cases hquote : IsStructuralAt policy text (String.utf8Len pre)
      · rw [if_pos hquote, Nat.odd_add_one, ← ih hsplit, decide_eq_true hquote]
        simp
      · rw [if_neg hquote, Nat.add_zero, ← ih hsplit, decide_eq_false hquote, Bool.xor_false]

/-- A character belongs to a literal when one is open before it or when it is a structural quote. -/
theorem covers_run_iff {pre post : List Char} {c : Char}
    (htext : text.toList = pre ++ c :: post) :
    covers policy (run policy .start pre) c = true ↔
      (run policy .start pre).inside = true ∨
        IsStructuralAt policy text (String.utf8Len pre) := by
  have hnext : (run policy .start (pre ++ [c])).inside = _ := inside_run_concat htext
  rw [run_append, run_cons, run_nil] at hnext
  rw [covers, hnext]
  cases (run policy .start pre).inside <;> simp

/-- An offset that is protected lies in one of the spans. -/
theorem exists_contains_of_isProtected {spans : List Span} {q : Nat}
    (h : isProtected spans q = true) : ∃ sp ∈ spans, sp.contains q = true := by
  rw [isProtected, Option.any_eq_true] at h
  obtain ⟨sp, hlast, hcontains⟩ := h
  exact ⟨sp, (List.takeWhile_sublist _).subset (List.mem_of_getLast? hlast), hcontains⟩

/-- No span reaches beyond the end of the text. -/
theorem stop_le_of_mem_spansFrom {s : State} {start pos : Nat} {cs : List Char} {sp : Span}
    (h : sp ∈ spansFrom policy s start pos cs) : sp.stop ≤ pos + String.utf8Len cs := by
  induction cs generalizing s start pos with
  | nil => cases hi : s.inside <;> simp_all [spansFrom]
  | cons c cs ih =>
      rw [String.utf8Len_cons]
      cases hi : s.inside <;> cases hn : (step policy s c).inside <;>
        simp only [spansFrom, hi, hn, List.mem_cons] at h
      · have := ih h
        omega
      · have := ih h
        omega
      · rcases h with rfl | h
        · simp only
          omega
        · have := ih h
          omega
      · have := ih h
        omega

theorem isProtected_scan_of_le {pos : Nat} (h : text.utf8ByteSize ≤ pos) :
    isProtected (scan policy text) pos = false := by
  rw [Bool.eq_false_iff]
  intro hprotected
  obtain ⟨sp, hmem, hcontains⟩ := exists_contains_of_isProtected hprotected
  have hstop := stop_le_of_mem_spansFrom hmem
  rw [String.utf8Len_toList] at hstop
  simp only [Span.contains, Bool.and_eq_true, decide_eq_true_eq] at hcontains
  omega

/-- A byte of a text is protected just when it is a structural quote or an odd number of structural
quotes stand before it. Beyond the end nothing is protected, whether the last literal is terminated
or not. -/
theorem isProtected_scan_iff (policy : QuotePolicy) (text : String) (pos : Nat) :
    isProtected (scan policy text) pos = true ↔
      pos < text.utf8ByteSize ∧
        (IsStructuralAt policy text pos ∨ Odd (Nat.count (IsStructuralAt policy text) pos)) := by
  by_cases hpos : pos < text.utf8ByteSize
  · have hbytes : pos < String.utf8Len text.toList := by rwa [String.utf8Len_toList]
    obtain ⟨pre, c, post, htext, hlo, hhi⟩ := exists_char_of_lt_utf8Len hbytes
    have hmask : isProtected (scan policy text) pos = covers policy (run policy .start pre) c := by
      rw [scan, htext]
      exact isProtected_spansFrom pre c post (by simp [State.start]) (by omega) (by omega)
    rw [hmask, covers_run_iff htext, inside_run_iff_odd htext, and_iff_right hpos]
    rcases Nat.eq_or_lt_of_le hlo with rfl | hlt
    · exact or_comm
    · -- the byte lies within a character, which is therefore no quote
      have hwithin : ¬ IsStructuralAt policy text pos :=
        not_isStructuralAt_within htext hlt hhi
      have hfirst : ¬ IsStructuralAt policy text (String.utf8Len pre) := by
        intro hquote
        have := hquote.utf8Size_eq htext
        omega
      rw [count_isStructuralAt_within htext hlt hhi.le, if_neg hfirst, Nat.add_zero,
        or_iff_left hfirst, or_iff_right hwithin]
  · rw [isProtected_scan_of_le (by omega)]
    simp [hpos]

-- an escaped quote within a literal that has no end, and a character of several bytes behind it
example : (List.range 9).map (isProtected (scan .escapeAware "a\"\\\"é ")) =
    [false, true, true, true, true, true, true, false, false] := by
  decide

end Transcription.Literal
