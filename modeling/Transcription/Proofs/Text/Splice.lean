import Transcription.Proofs.Literal.Texts
import Transcription.Proofs.Text.Choice
import Transcription.Proofs.Text.Offset

/-!
# Replacing stretches of a text

To splice a text is to put a replacement in the place of stretches of one width, given by the
offsets at which they begin, and to keep the parts between them. A substitution walk is a splice:
the stretches are the places that are chosen from the left among those where the target stands, in
bytes of the text as it is given.
-/

namespace Transcription.Text

/-- What a text becomes from the offset `pos` on when the stretches of some width that begin at the
given offsets are replaced. -/
def splice (text : String) (width : Nat) (replacement : String) (pos : Nat) : List Nat → String
  | [] => (Span.mk pos text.utf8ByteSize).text text
  | p :: ps =>
    (Span.mk pos p).text text ++ replacement ++ splice text width replacement (p + width) ps

@[simp] theorem splice_nil (text : String) (width : Nat) (replacement : String) (pos : Nat) :
    splice text width replacement pos [] = (Span.mk pos text.utf8ByteSize).text text := rfl

@[simp] theorem splice_cons (text : String) (width : Nat) (replacement : String) (pos p : Nat)
    (ps : List Nat) :
    splice text width replacement pos (p :: ps) =
      (Span.mk pos p).text text ++ replacement ++ splice text width replacement (p + width) ps :=
  rfl

/-- Where nothing is replaced the text is kept. -/
theorem splice_zero_nil (text : String) (width : Nat) (replacement : String) :
    splice text width replacement 0 [] = text := by
  have hwhole : text.toList = [] ++ text.toList ++ [] := by simp
  have hspan := Span.text_eq hwhole
  rwa [String.utf8Len_nil, List.nil_append, String.utf8Len_toList, String.ofList_toList] at hspan

namespace Substitution

variable {σ : Type} (s : Substitution σ)

/-- The target stands at an offset in bytes and may be replaced there. -/
def StandsAtOffset (ctx : σ) (text : List Char) (q : Nat) : Prop :=
  ∃ before rest, text = before ++ rest ∧ String.utf8Len before = q ∧
    s.matchesAt (before.foldl s.extend ctx) rest = true

variable {s}

theorem standsAtOffset_zero_iff {ctx : σ} {text : List Char} :
    s.StandsAtOffset ctx text 0 ↔ s.matchesAt ctx text = true := by
  constructor
  · rintro ⟨before, rest, rfl, hzero, hm⟩
    obtain rfl := String.utf8Len_eq_zero.mp hzero
    exact hm
  · intro hm
    exact ⟨[], text, rfl, rfl, hm⟩

/-- Behind a part of the text the target stands where it stands in the rest. -/
theorem standsAtOffset_append_iff (ctx : σ) (u rest : List Char) (q : Nat) :
    s.StandsAtOffset ctx (u ++ rest) (q + String.utf8Len u) ↔
      s.StandsAtOffset (u.foldl s.extend ctx) rest q := by
  constructor
  · rintro ⟨before, later, htext, hoffset, hm⟩
    obtain ⟨m, rfl⟩ := isPrefix_of_utf8Len_le htext (by omega)
    rw [List.append_assoc] at htext
    rw [String.utf8Len_append] at hoffset
    rw [List.foldl_append] at hm
    exact ⟨m, later, List.append_cancel_left htext, by omega, hm⟩
  · rintro ⟨m, later, rfl, rfl, hm⟩
    refine ⟨u ++ m, later, by simp, ?_, ?_⟩
    · rw [String.utf8Len_append, Nat.add_comm]
    · rwa [List.foldl_append]

theorem standsAtOffset_cons_iff (ctx : σ) (c : Char) (cs : List Char) (q : Nat) :
    s.StandsAtOffset ctx (c :: cs) (q + c.utf8Size) ↔ s.StandsAtOffset (s.extend ctx c) cs q := by
  have happend := standsAtOffset_append_iff (s := s) ctx [c] cs q
  rwa [String.utf8Len_cons, String.utf8Len_nil, Nat.zero_add] at happend

/-- Where the target does not match, it stands nowhere in the first character. -/
theorem not_standsAtOffset_of_lt {ctx : σ} {c : Char} {cs : List Char}
    (hm : s.matchesAt ctx (c :: cs) = false) {q : Nat} (hq : q < c.utf8Size) :
    ¬ s.StandsAtOffset ctx (c :: cs) q := by
  intro hstands
  rcases Nat.eq_zero_or_pos q with rfl | hpos
  · rw [standsAtOffset_zero_iff, hm] at hstands
    exact Bool.false_ne_true hstands
  · obtain ⟨before, rest, htext, rfl, -⟩ := hstands
    have hcut := utf8Len_add_utf8Size_le (a := []) htext hpos
    rw [String.utf8Len_nil] at hcut
    omega

/-- A walk splices the text at the places that are chosen from the left among those where the target
stands, and counts them. Of the text, `pre` has been dealt with and `opened` has been copied since
the last place. -/
theorem exists_splice_walk (hne : s.target ≠ []) (ctx : σ) (rest : List Char) {text : String}
    (pre opened : List Char) (htext : text.toList = pre ++ opened ++ rest) :
    ∃ places,
      IsLeftmostChoice (s.StandsAtOffset ctx rest) (String.utf8Len s.target) places ∧
      (s.walk ctx 0 rest).count = places.length ∧
      splice text (String.utf8Len s.target) (String.ofList s.replacement) (String.utf8Len pre)
          (places.map (· + String.utf8Len (pre ++ opened))) =
        String.ofList (opened ++ (s.walk ctx 0 rest).text) := by
  induction ctx, rest using walk_induction (s := s) hne generalizing pre opened with
  | nil ctx =>
      refine ⟨[], .nil fun q hq => ?_, by simp, ?_⟩
      · obtain ⟨before, later, htext, -, hm⟩ := hq
        obtain ⟨after, rfl⟩ := exists_eq_append_of_matchesAt hm
        exact hne (List.append_eq_nil_iff.mp (List.append_eq_nil_iff.mp htext.symm).2).1
      · have hend : text.utf8ByteSize = String.utf8Len (pre ++ opened) := by
          rw [← String.utf8Len_toList, htext, List.append_nil]
        rw [List.map_nil, splice_nil, hend, Span.text_eq htext, walk_nil, List.append_nil]
  | replace ctx rest hm ih =>
      have hread : text.toList = pre ++ opened ++ s.target ++ [] ++ rest := by simp [htext]
      obtain ⟨places, hplaces, hcount, hspliced⟩ := ih (pre ++ opened ++ s.target) [] hread
      have hpart : text.toList = pre ++ opened ++ (s.target ++ rest) := by simp [htext]
      have hfirst := standsAtOffset_zero_iff.mpr hm
      refine ⟨_, hplaces.cons (standsAtOffset_append_iff ctx s.target rest) hfirst, ?_, ?_⟩
      · rw [walk_of_matchesAt rfl hne hm, Rewritten.count_replace, hcount]
        simp
      · -- the places behind the target are counted from its end
        have hshift : (places.map (· + String.utf8Len s.target)).map
              (· + String.utf8Len (pre ++ opened)) =
            places.map (· + String.utf8Len (pre ++ opened ++ s.target ++ [])) := by
          rw [List.map_map, List.append_nil, String.utf8Len_append (pre ++ opened)]
          exact List.map_congr_left fun q _ => by simp only [Function.comp_apply]; omega
        rw [walk_of_matchesAt rfl hne hm, Rewritten.text_replace, List.map_cons, Nat.zero_add,
          splice_cons, hshift, ← String.utf8Len_append, hspliced, Span.text_eq hpart]
        simp [String.ofList_append, String.append_assoc]
  | copy ctx c cs hm ih =>
      have hread : text.toList = pre ++ (opened ++ [c]) ++ cs := by simp [htext]
      obtain ⟨places, hplaces, hcount, hspliced⟩ := ih pre (opened ++ [c]) hread
      refine ⟨_, hplaces.shift (standsAtOffset_cons_iff ctx c cs)
        (fun q hq => not_standsAtOffset_of_lt hm hq), ?_, ?_⟩
      · rw [walk_cons_of_not_matchesAt hm, Rewritten.count_copy, hcount]
        simp
      · have hshift : (places.map (· + c.utf8Size)).map (· + String.utf8Len (pre ++ opened)) =
            places.map (· + String.utf8Len (pre ++ (opened ++ [c]))) := by
          rw [List.map_map, ← List.append_assoc, String.utf8Len_append (pre ++ opened)]
          refine List.map_congr_left fun q _ => ?_
          simp only [Function.comp_apply, String.utf8Len_cons, String.utf8Len_nil]
          omega
        rw [walk_cons_of_not_matchesAt hm, Rewritten.text_copy, hshift, hspliced]
        simp

end Substitution

end Transcription.Text
