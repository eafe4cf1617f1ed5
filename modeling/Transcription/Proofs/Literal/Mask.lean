import Transcription.Proofs.Literal.Run
import Transcription.Proofs.Text.Pieces

/-!
# The protected offsets of a scan

Looking an offset up in the spans of a scan gives what the scanner itself knows when it reads the
character there: the character belongs to a literal. The spans carry the answer because they come
in order, each ending before the next begins, so that the last span that begins at or before an
offset is the only one that can hold it.

A text cut into pieces is marked by asking for every piece whether its first character is
protected. `markedPieces` asks the spans of the whole text; `markFrom` carries the scanner along
and never looks back.
-/

namespace Transcription.Literal

open Text

variable {policy : QuotePolicy}

/-- The lookup passes over a span that ends at or before the offset. -/
theorem isProtected_cons_of_stop_le {sp : Span} {spans : List Span} {q : Nat}
    (hstart : sp.start ≤ q) (hstop : sp.stop ≤ q) :
    isProtected (sp :: spans) q = isProtected spans q := by
  rw [isProtected, isProtected, List.takeWhile_cons_of_pos (by simpa using hstart)]
  cases h : spans.takeWhile fun s => decide (s.start ≤ q) with
  | nil => simp [Span.contains, hstop]
  | cons t ts => rw [List.getLast?_cons_cons]

/-- The lookup finds no span when all of them begin later. -/
theorem isProtected_of_lt_start {spans : List Span} {q : Nat} (h : ∀ sp ∈ spans, q < sp.start) :
    isProtected spans q = false := by
  cases spans with
  | nil => rfl
  | cons sp rest =>
      have hq : q < sp.start := h sp (by simp)
      simp [isProtected, hq]

/-- The lookup finds a span that holds the offset when the others begin after it. -/
theorem isProtected_cons_of_contains {sp : Span} {spans : List Span} {q : Nat}
    (hstart : sp.start ≤ q) (hstop : q < sp.stop) (h : ∀ t ∈ spans, q < t.start) :
    isProtected (sp :: spans) q = true := by
  have hnone : spans.takeWhile (fun s => decide (s.start ≤ q)) = [] := by
    cases spans with
    | nil => rfl
    | cons t ts => simp [h t (by simp)]
  simp [isProtected, hstart, hnone, Span.contains, hstop]

/-- A span still to be found begins where the open literal did or, outside literals, at the position
or later. -/
theorem le_start_of_mem_spansFrom {s : State} {start pos : Nat} {cs : List Char} {sp : Span}
    (hstart : s.inside = true → start ≤ pos) (h : sp ∈ spansFrom policy s start pos cs) :
    (if s.inside then start else pos) ≤ sp.start := by
  induction cs generalizing s start pos with
  | nil => cases hi : s.inside <;> simp_all [spansFrom]
  | cons c cs ih =>
      cases hi : s.inside <;> cases hn : (step policy s c).inside <;>
        simp only [spansFrom, hi, hn, List.mem_cons] at h
      · have hlater := ih (by simp [hn]) h
        rw [hn, if_neg Bool.false_ne_true] at hlater
        exact Nat.le_trans (Nat.le_add_right _ _) hlater
      · have hlater := ih (fun _ => Nat.le_add_right _ _) h
        rwa [hn, if_pos rfl] at hlater
      · have hpos := hstart hi
        rcases h with rfl | h
        · exact Nat.le_refl _
        · have hlater := ih (by simp [hn]) h
          rw [hn, if_neg Bool.false_ne_true] at hlater
          rw [if_pos rfl]
          omega
      · have hpos := hstart hi
        have hlater := ih (by omega) h
        rwa [hn, if_pos rfl] at hlater

/-- Outside literals every span still to be found begins at the position or later. -/
theorem pos_le_start_of_mem_spansFrom {s : State} (hs : s.inside = false) {start pos : Nat}
    {cs : List Char} {sp : Span} (h : sp ∈ spansFrom policy s start pos cs) : pos ≤ sp.start := by
  have hle := le_start_of_mem_spansFrom (by simp [hs]) h
  rwa [hs, if_neg Bool.false_ne_true] at hle

/-- Inside a literal the first span found is that literal, and the others begin after it. -/
theorem exists_spansFrom_eq_cons {s : State} (hs : s.inside = true) (start pos : Nat)
    (cs : List Char) : ∃ stop rest, spansFrom policy s start pos cs = ⟨start, stop⟩ :: rest ∧
      pos ≤ stop ∧ ∀ sp ∈ rest, stop ≤ sp.start := by
  induction cs generalizing s pos with
  | nil => exact ⟨pos, [], by simp [spansFrom, hs], Nat.le_refl pos, by simp⟩
  | cons c cs ih =>
      cases hn : (step policy s c).inside with
      | false =>
          refine ⟨pos + c.utf8Size, spansFrom policy (step policy s c) start (pos + c.utf8Size) cs,
            by simp [spansFrom, hs, hn], Nat.le_add_right _ _, fun sp hsp => ?_⟩
          exact pos_le_start_of_mem_spansFrom hn hsp
      | true =>
          obtain ⟨stop, rest, heq, hle, hrest⟩ := ih hn (pos + c.utf8Size)
          refine ⟨stop, rest, ?_, Nat.le_trans (Nat.le_add_right _ _) hle, hrest⟩
          simpa [spansFrom, hs, hn] using heq

/-- An offset within a character is protected when the character belongs to a literal. -/
theorem isProtected_spansFrom {s : State} {start pos q : Nat} (pre : List Char) (c : Char)
    (post : List Char) (hstart : s.inside = true → start ≤ pos)
    (hlo : pos + String.utf8Len pre ≤ q) (hhi : q < pos + String.utf8Len pre + c.utf8Size) :
    isProtected (spansFrom policy s start pos (pre ++ c :: post)) q =
      covers policy (run policy s pre) c := by
  induction pre generalizing s start pos with
  | nil =>
      simp only [String.utf8Len_nil, Nat.add_zero] at hlo hhi
      rw [List.nil_append, run_nil, covers]
      cases hi : s.inside <;> cases hn : (step policy s c).inside <;> simp only [spansFrom, hi, hn]
      · -- no literal reaches the character
        refine isProtected_of_lt_start fun sp hsp => ?_
        exact Nat.lt_of_lt_of_le hhi (pos_le_start_of_mem_spansFrom hn hsp)
      · -- the character opens a literal
        obtain ⟨stop, rest, heq, hle, hrest⟩ :=
          exists_spansFrom_eq_cons hn pos (pos + c.utf8Size) post
        rw [heq]
        exact isProtected_cons_of_contains hlo (Nat.lt_of_lt_of_le hhi hle)
          fun t ht => Nat.lt_of_lt_of_le hhi (Nat.le_trans hle (hrest t ht))
      · -- the character closes the literal
        exact isProtected_cons_of_contains (Nat.le_trans (hstart hi) hlo) hhi
          fun t ht => Nat.lt_of_lt_of_le hhi (pos_le_start_of_mem_spansFrom hn ht)
      · -- the literal goes on after the character
        obtain ⟨stop, rest, heq, hle, hrest⟩ :=
          exists_spansFrom_eq_cons hn start (pos + c.utf8Size) post
        rw [heq]
        exact isProtected_cons_of_contains (Nat.le_trans (hstart hi) hlo)
          (Nat.lt_of_lt_of_le hhi hle)
          fun t ht => Nat.lt_of_lt_of_le hhi (Nat.le_trans hle (hrest t ht))
  | cons d pre ih =>
      rw [String.utf8Len_cons] at hlo hhi
      have hlo' : pos + d.utf8Size + String.utf8Len pre ≤ q := by omega
      have hhi' : q < pos + d.utf8Size + String.utf8Len pre + c.utf8Size := by omega
      rw [List.cons_append, run_cons]
      cases hi : s.inside <;> cases hn : (step policy s d).inside <;> simp only [spansFrom, hi, hn]
      · exact ih (by simp [hn]) hlo' hhi'
      · exact ih (fun _ => Nat.le_add_right _ _) hlo' hhi'
      · rw [isProtected_cons_of_stop_le (by have := hstart hi; simp only; omega)
          (by simp only; omega)]
        exact ih (by simp [hn]) hlo' hhi'
      · exact ih (fun _ => Nat.le_trans (hstart hi) (Nat.le_add_right _ _)) hlo' hhi'

/-- The first byte of a character is protected when the character belongs to a literal. -/
theorem isProtected_scan_utf8Len (policy : QuotePolicy) (pre : List Char) (c : Char)
    (post : List Char) :
    isProtected (scan policy (String.ofList (pre ++ c :: post))) (String.utf8Len pre) =
      covers policy (run policy .start pre) c := by
  have hsize := c.utf8Size_pos
  rw [scan, String.toList_ofList]
  exact isProtected_spansFrom pre c post (by simp [State.start]) (by omega) (by omega)

/-- A text ends inside a literal when the literal would hold whatever came next. -/
theorem endsOpen_eq_isProtected_push (policy : QuotePolicy) (text : String) :
    endsOpen policy text = isProtected (scan policy (text ++ " ")) text.utf8ByteSize := by
  have hplain : isInert policy ' ' = true := by cases policy <;> decide
  have hmask := isProtected_scan_utf8Len policy text.toList ' ' []
  rw [covers_of_isInert hplain, String.utf8Len_toList] at hmask
  rw [endsOpen, ← hmask]
  congr 2
  simp [String.ofList_append]

/-- The pieces of a text, each with whether its first character is protected. -/
def markedPieces (policy : QuotePolicy) (text : String) : List (Bool × Piece) :=
  (located 0 (pieces text.toList)).map fun p => (isProtected (scan policy text) p.1, p.2)

/-- Mark pieces that are read from a given state. -/
def markFrom (policy : QuotePolicy) : State → List Piece → List (Bool × Piece)
  | _, [] => []
  | s, p :: ps =>
    (p.chars.head?.any (covers policy s), p) :: markFrom policy (run policy s p.chars) ps

@[simp] theorem markFrom_nil (policy : QuotePolicy) (s : State) : markFrom policy s [] = [] := rfl

@[simp] theorem markFrom_cons (policy : QuotePolicy) (s : State) (p : Piece) (ps : List Piece) :
    markFrom policy s (p :: ps) =
      (p.chars.head?.any (covers policy s), p) :: markFrom policy (run policy s p.chars) ps := rfl

theorem markFrom_append (policy : QuotePolicy) (s : State) (ps qs : List Piece) :
    markFrom policy s (ps ++ qs) =
      markFrom policy s ps ++ markFrom policy (run policy s (ps.flatMap Piece.chars)) qs := by
  induction ps generalizing s with
  | nil => rfl
  | cons p ps ih => simp [ih]

/-- The spans mark the pieces as the scanner does on its way. -/
theorem map_located_eq_markFrom (policy : QuotePolicy) (pre : List Char) (ps : List Piece)
    (h : ∀ p ∈ ps, p.chars ≠ []) :
    (located (String.utf8Len pre) ps).map (fun p =>
        (isProtected (scan policy (String.ofList (pre ++ ps.flatMap Piece.chars))) p.1, p.2)) =
      markFrom policy (run policy .start pre) ps := by
  induction ps generalizing pre with
  | nil => rfl
  | cons p ps ih =>
      have htail := ih (pre ++ p.chars) fun q hq => h q (List.mem_cons_of_mem p hq)
      rw [String.utf8Len_append, List.append_assoc, run_append] at htail
      rw [located, List.map_cons, List.flatMap_cons, markFrom_cons, htail]
      obtain ⟨c, cs, hc⟩ := List.exists_cons_of_ne_nil (h p (by simp))
      have hhead := isProtected_scan_utf8Len policy pre c (cs ++ ps.flatMap Piece.chars)
      rw [hc, List.cons_append, hhead]
      rfl

theorem markedPieces_eq_markFrom (policy : QuotePolicy) (text : String) :
    markedPieces policy text = markFrom policy .start (pieces text.toList) := by
  have h := map_located_eq_markFrom policy [] (pieces text.toList)
    (chars_ne_nil_of_mem_pieces text.toList)
  rw [flatMap_chars_pieces, List.nil_append, String.ofList_toList] at h
  exact h

end Transcription.Literal
