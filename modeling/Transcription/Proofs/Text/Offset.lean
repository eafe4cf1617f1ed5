import Mathlib.Data.String.Basic

/-!
# Offsets in a text

The characters that stand before an offset of a text are determined by the number of their bytes,
and an offset within a character has no such characters before it. Two ways to cut one text are
therefore compared by the bytes on their left.
-/

namespace Transcription.Text

variable {a b x y : List Char}

/-- Of two beginnings of one text the one with fewer bytes begins the other. -/
theorem isPrefix_of_utf8Len_le (h : a ++ x = b ++ y) (hle : String.utf8Len a ≤ String.utf8Len b) :
    a <+: b := by
  rcases List.append_eq_append_iff.mp h with ⟨m, rfl, -⟩ | ⟨m, rfl, -⟩
  · exact List.prefix_append a m
  · rw [String.utf8Len_append] at hle
    have hm : String.utf8Len m = 0 := by omega
    obtain rfl := String.utf8Len_eq_zero.mp hm
    exact ⟨[], by simp⟩

/-- A text is cut at an offset in one way. -/
theorem append_inj_of_utf8Len_eq (h : a ++ x = b ++ y)
    (heq : String.utf8Len a = String.utf8Len b) : a = b ∧ x = y := by
  obtain ⟨m, rfl⟩ := isPrefix_of_utf8Len_le h heq.le
  rw [String.utf8Len_append] at heq
  have hm : String.utf8Len m = 0 := by omega
  rw [String.utf8Len_eq_zero.mp hm, List.append_nil] at h ⊢
  exact ⟨rfl, List.append_cancel_left h⟩

/-- No text is cut within a character: the cut after the one before it is behind it. -/
theorem utf8Len_add_utf8Size_le {c : Char} (h : a ++ c :: x = b ++ y)
    (hlt : String.utf8Len a < String.utf8Len b) :
    String.utf8Len a + c.utf8Size ≤ String.utf8Len b := by
  obtain ⟨m, rfl⟩ := isPrefix_of_utf8Len_le h hlt.le
  cases m with
  | nil => simp at hlt
  | cons d m =>
      rw [List.append_assoc] at h
      obtain ⟨rfl, -⟩ := List.cons.inj (List.append_cancel_left h)
      rw [String.utf8Len_append, String.utf8Len_cons]
      omega

/-- To cut a text before a character is to choose an index at which the character stands. -/
theorem exists_cut_iff_getElem? {text : List Char} {c : Char} {P : List Char → Prop} :
    (∃ pre post, text = pre ++ c :: post ∧ P pre) ↔
      ∃ i < text.length, text[i]? = some c ∧ P (text.take i) := by
  constructor
  · rintro ⟨pre, post, rfl, hpre⟩
    refine ⟨pre.length, ?_, ?_, ?_⟩
    · simp
    · simp
    · rwa [List.take_left]
  · rintro ⟨i, -, hget, hpre⟩
    refine ⟨text.take i, text.drop (i + 1), ?_, hpre⟩
    obtain ⟨hlt, hchar⟩ := List.getElem?_eq_some_iff.mp hget
    rw [← hchar, List.getElem_cons_drop, List.take_append_drop]

/-- Every byte of a text belongs to a character. -/
theorem exists_char_of_lt_utf8Len {text : List Char} {q : Nat} (h : q < String.utf8Len text) :
    ∃ pre c post, text = pre ++ c :: post ∧ String.utf8Len pre ≤ q ∧
      q < String.utf8Len pre + c.utf8Size := by
  induction text generalizing q with
  | nil => simp at h
  | cons c cs ih =>
      by_cases hq : q < c.utf8Size
      · exact ⟨[], c, cs, rfl, by simp, by simpa using hq⟩
      · rw [String.utf8Len_cons] at h
        have hrest : q - c.utf8Size < String.utf8Len cs := by omega
        obtain ⟨pre, d, post, rfl, hle, hlt⟩ := ih hrest
        refine ⟨c :: pre, d, post, rfl, ?_, ?_⟩
        · rw [String.utf8Len_cons]
          omega
        · rw [String.utf8Len_cons]
          omega

end Transcription.Text
