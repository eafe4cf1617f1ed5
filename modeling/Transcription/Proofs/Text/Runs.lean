import Transcription.Proofs.Text.Pieces

/-!
# Maximal runs of word characters

A word stands in a text as a maximal run when it is a stretch of word characters that cannot be made
longer on either side. The words among the pieces of a text are its maximal runs, each at the offset
where its piece begins, and no two pieces begin at one offset.
-/

namespace Transcription.Text

/-- A word stands at an offset of a text, with no word character before it or after it. -/
def IsRunAt (text w : List Char) (q : Nat) : Prop :=
  isWord w = true ∧ ∃ before after, text = before ++ (w ++ after) ∧ String.utf8Len before = q ∧
    before.getLast?.any isWordChar = false ∧ after.head?.any isWordChar = false

variable {v w rest : List Char} {q : Nat}

theorem not_isRunAt_nil : ¬ IsRunAt [] w q := by
  rintro ⟨hw, before, after, htext, -⟩
  have hnil := (List.append_eq_nil_iff.mp htext.symm).2
  exact ne_nil_of_isWord hw (List.append_eq_nil_iff.mp hnil).1

theorem any_getLast?_cons_other {c : Char} (hc : isWordChar c = false) (cs : List Char) :
    (c :: cs).getLast?.any isWordChar = cs.getLast?.any isWordChar := by
  cases cs with
  | nil => simpa using hc
  | cons d ds => rw [List.getLast?_cons_cons]

/-- Behind a character that belongs to no word the runs are those of the rest. -/
theorem isRunAt_cons_other_iff {c : Char} (hc : isWordChar c = false) (cs : List Char) :
    IsRunAt (c :: cs) w q ↔ ∃ k, q = c.utf8Size + k ∧ IsRunAt cs w k := by
  constructor
  · rintro ⟨hw, before, after, htext, rfl, hbefore, hafter⟩
    cases before with
    | nil =>
        -- the word would begin with the character
        have hmem : c ∈ w := by
          obtain ⟨d, ds, rfl⟩ := List.exists_cons_of_ne_nil (ne_nil_of_isWord hw)
          rw [(List.cons.inj htext).1]
          exact List.mem_cons_self
        exact absurd (isWordChar_of_mem hw hmem) (by simp [hc])
    | cons d ds =>
        obtain ⟨rfl, hcs⟩ := List.cons.inj htext
        rw [any_getLast?_cons_other hc] at hbefore
        exact ⟨_, by rw [String.utf8Len_cons, Nat.add_comm], hw, ds, after, hcs, rfl, hbefore,
          hafter⟩
  · rintro ⟨k, rfl, hw, before, after, rfl, rfl, hbefore, hafter⟩
    refine ⟨hw, c :: before, after, rfl, by rw [String.utf8Len_cons, Nat.add_comm], ?_, hafter⟩
    rwa [any_getLast?_cons_other hc]

/-- A text that begins apart does not begin with a word. -/
theorem not_beginsApart_word_append (hw : isWord w = true) (rest : List Char) :
    beginsApart (w ++ rest) = false := by
  obtain ⟨c, cs, rfl⟩ := List.exists_cons_of_ne_nil (ne_nil_of_isWord hw)
  have hc : isWordChar c = true := isWordChar_of_mem hw (by simp)
  simp [hc]

/-- A word at the beginning of a text is a run, and the others are those of what is behind it. -/
theorem isRunAt_word_append_iff (hv : isWord v = true) (hr : beginsApart rest = true) :
    IsRunAt (v ++ rest) w q ↔
      q = 0 ∧ w = v ∨ ∃ k, q = String.utf8Len v + k ∧ IsRunAt rest w k := by
  constructor
  · rintro ⟨hw, before, after, htext, rfl, hbefore, hafter⟩
    have hapart : beginsApart after = true := by simp [beginsApart, hafter]
    rcases List.append_eq_append_iff.mp htext with ⟨middle, rfl, hrest⟩ | ⟨middle, rfl, hword⟩
    · -- the run lies behind the word, and not against it
      have hmiddle : middle ≠ [] := by
        rintro rfl
        rw [hrest, List.nil_append, not_beginsApart_word_append hw] at hr
        exact Bool.false_ne_true hr
      rw [List.getLast?_append_of_ne_nil _ hmiddle] at hbefore
      exact .inr ⟨_, String.utf8Len_append _ _, hw, middle, after, hrest, rfl, hbefore, hafter⟩
    · -- the run begins within the word, so it begins where the word does
      have hnil : before = [] := by
        by_contra hne
        rw [List.getLast?_eq_some_getLast hne, Option.any_some] at hbefore
        have hmem := List.mem_append_left middle (List.getLast_mem hne)
        rw [isWordChar_of_mem hv hmem] at hbefore
        exact Bool.noConfusion hbefore
      subst hnil
      rw [List.nil_append] at hv
      exact .inl ⟨rfl, (word_append_inj hw hv hapart hr hword).1⟩
  · rintro (⟨rfl, rfl⟩ | ⟨k, rfl, hw, before, after, rfl, rfl, hbefore, hafter⟩)
    · refine ⟨hv, [], rest, rfl, rfl, rfl, ?_⟩
      simpa [beginsApart] using hr
    · have hne : before ≠ [] := by
        rintro rfl
        rw [List.nil_append, not_beginsApart_word_append hw] at hr
        exact Bool.false_ne_true hr
      refine ⟨hw, v ++ before, after, by simp, String.utf8Len_append _ _, ?_, hafter⟩
      rwa [List.getLast?_append_of_ne_nil _ hne]

/-- The words among the pieces of a text are its maximal runs. -/
theorem mem_located_pieces_iff (pos : Nat) (text : List Char) :
    (q, Piece.word w) ∈ located pos (pieces text) ↔ ∃ k, q = pos + k ∧ IsRunAt text w k := by
  induction text using word_induction generalizing pos with
  | nil => simp [located, not_isRunAt_nil]
  | other c cs hc ih =>
      rw [pieces_cons_other hc, located, List.mem_cons, ih]
      constructor
      · rintro (h | ⟨k, rfl, hrun⟩)
        · cases h
        · exact ⟨c.utf8Size + k, by simp [Nat.add_assoc],
            (isRunAt_cons_other_iff hc cs).mpr ⟨k, rfl, hrun⟩⟩
      · rintro ⟨k, rfl, hrun⟩
        obtain ⟨m, rfl, hbehind⟩ := (isRunAt_cons_other_iff hc cs).mp hrun
        exact .inr ⟨m, by simp [Nat.add_assoc], hbehind⟩
  | word v rest hv hr ih =>
      rw [pieces_word_append hv hr, located, List.mem_cons, ih]
      constructor
      · rintro (h | ⟨k, rfl, hrun⟩)
        · cases h
          exact ⟨0, rfl, (isRunAt_word_append_iff hv hr).mpr (.inl ⟨rfl, rfl⟩)⟩
        · exact ⟨String.utf8Len v + k, by simp [Nat.add_assoc],
            (isRunAt_word_append_iff hv hr).mpr (.inr ⟨k, rfl, hrun⟩)⟩
      · rintro ⟨k, rfl, hrun⟩
        rcases (isRunAt_word_append_iff hv hr).mp hrun with ⟨rfl, rfl⟩ | ⟨m, rfl, hbehind⟩
        · exact .inl rfl
        · exact .inr ⟨m, by simp [Nat.add_assoc], hbehind⟩

theorem map_snd_located (pos : Nat) (ps : List Piece) : (located pos ps).map Prod.snd = ps := by
  induction ps generalizing pos with
  | nil => rfl
  | cons p ps ih => rw [located, List.map_cons, ih]

/-- A word is a piece of a text when it stands somewhere in it as a maximal run. -/
theorem exists_isRunAt_iff {text : List Char} :
    (∃ q, IsRunAt text w q) ↔ Piece.word w ∈ pieces text := by
  constructor
  · rintro ⟨q, hrun⟩
    have hmem := (mem_located_pieces_iff 0 text).mpr ⟨q, (Nat.zero_add q).symm, hrun⟩
    rw [← map_snd_located 0 (pieces text)]
    exact List.mem_map_of_mem hmem
  · intro hmem
    rw [← map_snd_located 0 (pieces text)] at hmem
    obtain ⟨⟨q, p⟩, hq, rfl⟩ := List.mem_map.mp hmem
    obtain ⟨k, -, hrun⟩ := (mem_located_pieces_iff 0 text).mp hq
    exact ⟨k, hrun⟩

theorem le_of_mem_located {pos : Nat} {ps : List Piece} {p : Nat × Piece}
    (h : p ∈ located pos ps) : pos ≤ p.1 := by
  induction ps generalizing pos with
  | nil => simp [located] at h
  | cons r ps ih =>
      rcases List.mem_cons.mp h with rfl | h
      · exact Nat.le_refl _
      · exact Nat.le_trans (Nat.le_add_right _ _) (ih h)

/-- Pieces that have characters begin at different offsets. -/
theorem pairwise_lt_located (pos : Nat) {ps : List Piece} (h : ∀ p ∈ ps, p.chars ≠ []) :
    (located pos ps).Pairwise fun a b => a.1 < b.1 := by
  induction ps generalizing pos with
  | nil => exact .nil
  | cons p ps ih =>
      refine .cons (fun b hb => ?_) (ih _ fun r hr => h r (List.mem_cons_of_mem p hr))
      have hle := le_of_mem_located hb
      have hpos : 0 < String.utf8Len p.chars := by
        obtain ⟨c, cs, hc⟩ := List.exists_cons_of_ne_nil (h p (by simp))
        have := c.utf8Size_pos
        rw [hc, String.utf8Len_cons]
        omega
      omega

end Transcription.Text
