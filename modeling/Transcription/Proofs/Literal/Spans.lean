import Transcription.Proofs.Literal.Mask

/-!
# The order of the spans of a scan

The spans of a scan come from left to right, none of them is empty, and each ends before the next
one begins. In such a list the last span that begins at or before an offset is the only one that can
hold it, so the lookup finds a span whenever there is one.
-/

namespace Transcription.Literal

variable {policy : QuotePolicy} {s : State} {start pos : Nat} {cs : List Char}

/-- A span still to be found ends behind the place where it begins. -/
theorem start_lt_stop_of_mem_spansFrom (hstart : s.inside = true → start < pos) {sp : Span}
    (h : sp ∈ spansFrom policy s start pos cs) : sp.start < sp.stop := by
  induction cs generalizing s start pos with
  | nil => cases hi : s.inside <;> simp_all [spansFrom]
  | cons c cs ih =>
      have hsize := c.utf8Size_pos
      cases hi : s.inside <;> cases hn : (step policy s c).inside <;>
        simp only [spansFrom, hi, hn, List.mem_cons] at h
      · exact ih (by simp [hn]) h
      · exact ih (fun _ => by omega) h
      · have hopened := hstart hi
        rcases h with rfl | h
        · exact Nat.lt_add_right _ hopened
        · exact ih (by simp [hn]) h
      · have hopened := hstart hi
        exact ih (fun _ => by omega) h

/-- Of two spans the left one ends before the right one begins. -/
theorem pairwise_spansFrom (policy : QuotePolicy) (s : State) (start pos : Nat) (cs : List Char) :
    (spansFrom policy s start pos cs).Pairwise fun a b => a.stop ≤ b.start := by
  induction cs generalizing s start pos with
  | nil => cases hi : s.inside <;> simp [spansFrom, hi]
  | cons c cs ih =>
      cases hi : s.inside <;> cases hn : (step policy s c).inside <;> simp only [spansFrom, hi, hn]
      · exact ih _ _ _
      · exact ih _ _ _
      · exact .cons (fun t ht => pos_le_start_of_mem_spansFrom hn ht) (ih _ _ _)
      · exact ih _ _ _

theorem pairwise_scan (policy : QuotePolicy) (text : String) :
    (scan policy text).Pairwise fun a b => a.stop ≤ b.start :=
  pairwise_spansFrom policy .start 0 0 text.toList

theorem start_lt_stop_of_mem_scan {text : String} {sp : Span} (h : sp ∈ scan policy text) :
    sp.start < sp.stop :=
  start_lt_stop_of_mem_spansFrom (by simp [State.start]) h

/-- Among spans in order the lookup finds the one that holds an offset. -/
theorem isProtected_of_contains {spans : List Span} {q : Nat}
    (horder : spans.Pairwise fun a b => a.stop ≤ b.start)
    (hspan : ∀ sp ∈ spans, sp.start < sp.stop) {sp : Span} (hmem : sp ∈ spans)
    (hcontains : sp.contains q = true) : isProtected spans q = true := by
  have hbounds : sp.start ≤ q ∧ q < sp.stop := by simpa [Span.contains] using hcontains
  induction spans with
  | nil => simp at hmem
  | cons t ts ih =>
      obtain ⟨hfirst, hrest⟩ := List.pairwise_cons.mp horder
      rcases List.mem_cons.mp hmem with rfl | hlater
      · exact isProtected_cons_of_contains hbounds.1 hbounds.2
          fun u hu => Nat.lt_of_lt_of_le hbounds.2 (hfirst u hu)
      · have hpast : t.stop ≤ q := Nat.le_trans (hfirst sp hlater) hbounds.1
        have hspan' := hspan t List.mem_cons_self
        rw [isProtected_cons_of_stop_le (Nat.le_trans hspan'.le hpast) hpast]
        exact ih hrest (fun u hu => hspan u (List.mem_cons_of_mem t hu)) hlater

/-- An offset that is not protected lies in no span of the scan. -/
theorem contains_eq_false_of_isProtected_eq_false {text : String} {q : Nat}
    (h : isProtected (scan policy text) q = false) {sp : Span} (hmem : sp ∈ scan policy text) :
    sp.contains q = false := by
  rw [Bool.eq_false_iff]
  intro hcontains
  have hprotected := isProtected_of_contains (pairwise_scan policy text)
    (fun t ht => start_lt_stop_of_mem_scan ht) hmem hcontains
  exact Bool.noConfusion (h.symm.trans hprotected)

end Transcription.Literal
