import Transcription.Proofs.Literal.Mask
import Mathlib.Data.List.Count

/-!
# Rewording a text

To reword a text is to write another spelling for each of its words outside literals and to copy
everything else. All spellings are read off the text as it stands: nothing that has been written is
looked at again.

A rewording is a change of spelling that writes for every word either a word again or a nonempty
run of signs. Such a change moves no border between words and turns no character into or out of a
literal, so the words of the new text are the new spellings of the words of the old one. Two
rewordings one after the other are therefore a single one, by the composite spelling.
-/

namespace Transcription

open Text Literal

variable {policy : QuotePolicy} {f g : List Char → List Char}

/-- A nonempty run of characters that belong to no word and that the scanner passes over. -/
def isSigns (v : List Char) : Bool :=
  !v.isEmpty && v.all fun c => !isWordChar c && c != '"' && c != '\\'

theorem ne_nil_of_isSigns {v : List Char} (h : isSigns v = true) : v ≠ [] := by
  rintro rfl
  exact absurd h (by decide)

theorem isWordChar_of_isSigns {v : List Char} (h : isSigns v = true) {c : Char} (hc : c ∈ v) :
    isWordChar c = false := by
  simp only [isSigns, Bool.and_eq_true, List.all_eq_true, Bool.not_eq_true'] at h
  exact (h.2 c hc).1.1

theorem inert_of_isSigns {v : List Char} (h : isSigns v = true) (policy : QuotePolicy) :
    v.all (isInert policy) = true := by
  simp only [isSigns, Bool.and_eq_true, List.all_eq_true] at h
  exact List.all_eq_true.mpr fun c hc => by
    simp [isInert, (h.2 c hc).1.2, (h.2 c hc).2]

theorem inert_of_isWord {w : List Char} (h : isWord w = true) (policy : QuotePolicy) :
    w.all (isInert policy) = true :=
  List.all_eq_true.mpr fun _ hc => isInert_of_isWordChar (isWordChar_of_mem h hc) policy

theorem isWord_eq_false_of_isSigns {v : List Char} (h : isSigns v = true) : isWord v = false := by
  obtain ⟨c, cs, rfl⟩ := List.exists_cons_of_ne_nil (ne_nil_of_isSigns h)
  have hc : isWordChar c = false := isWordChar_of_isSigns h (by simp)
  simp [isWord, hc]

/-- A marked piece with its word respelled unless it is protected. -/
def respelled (f : List Char → List Char) : Bool × Piece → List Char
  | (shielded, .word w) => if shielded then w else f w
  | (_, .other c) => [c]

/-- The word of a marked piece that is not protected. -/
def freeWord? : Bool × Piece → Option (List Char)
  | (shielded, .word w) => if shielded then none else some w
  | (_, .other _) => none

/-- Write another spelling for each word outside literals, from a given state of the scanner. -/
def reword (policy : QuotePolicy) (f : List Char → List Char) (s : State) (text : List Char) :
    List Char :=
  (markFrom policy s (pieces text)).flatMap (respelled f)

/-- The words outside literals, read from a given state of the scanner. -/
def freeWordsFrom (policy : QuotePolicy) (s : State) (text : List Char) : List (List Char) :=
  (markFrom policy s (pieces text)).filterMap freeWord?

/-- The whole words of a text that no literal protects, from left to right. -/
def freeWords (policy : QuotePolicy) (text : String) : List String :=
  ((markedPieces policy text).filterMap freeWord?).map String.ofList

theorem freeWords_eq (policy : QuotePolicy) (text : String) :
    freeWords policy text = (freeWordsFrom policy .start text.toList).map String.ofList := by
  rw [freeWords, markedPieces_eq_markFrom, freeWordsFrom]

theorem mem_freeWords_iff {text w : String} :
    w ∈ freeWords policy text ↔ w.toList ∈ freeWordsFrom policy .start text.toList := by
  rw [freeWords_eq, List.mem_map]
  constructor
  · rintro ⟨v, hv, rfl⟩
    rwa [String.toList_ofList]
  · intro h
    exact ⟨w.toList, h, String.ofList_toList⟩

theorem count_freeWords (policy : QuotePolicy) (text w : String) :
    (freeWords policy text).count w = (freeWordsFrom policy .start text.toList).count w.toList := by
  rw [freeWords_eq]
  have hinj : Function.Injective String.ofList := fun a b h => String.ofList_injective h
  have hcount := List.count_map_of_injective (freeWordsFrom policy .start text.toList) _ hinj
    w.toList
  rw [String.ofList_toList] at hcount
  exact hcount

/-! ### The equations of rewording -/

@[simp] theorem reword_nil (f : List Char → List Char) (s : State) : reword policy f s [] = [] :=
  rfl

@[simp] theorem freeWordsFrom_nil (s : State) : freeWordsFrom policy s [] = [] := rfl

theorem reword_cons_other {c : Char} (hc : isWordChar c = false) (f : List Char → List Char)
    (s : State) (cs : List Char) :
    reword policy f s (c :: cs) = c :: reword policy f (step policy s c) cs := by
  rw [reword, pieces_cons_other hc]
  rfl

theorem freeWordsFrom_cons_other {c : Char} (hc : isWordChar c = false) (s : State)
    (cs : List Char) :
    freeWordsFrom policy s (c :: cs) = freeWordsFrom policy (step policy s c) cs := by
  rw [freeWordsFrom, pieces_cons_other hc]
  rfl

/-- The mark of a word is the scanner's state before it. -/
theorem markFrom_pieces_word_append {w rest : List Char} (hw : isWord w = true)
    (hr : beginsApart rest = true) (s : State) :
    markFrom policy s (pieces (w ++ rest)) =
      (s.inside, .word w) :: markFrom policy ⟨s.inside, false⟩ (pieces rest) := by
  have hinert := inert_of_isWord hw policy
  rw [pieces_word_append hw hr, markFrom_cons, Piece.chars_word,
    any_head?_covers_of_inert (ne_nil_of_isWord hw) hinert,
    run_of_inert (ne_nil_of_isWord hw) hinert]

/-- A word in a literal is copied. -/
theorem reword_word_inside {w rest : List Char} (hw : isWord w = true)
    (hr : beginsApart rest = true) (f : List Char → List Char) (escaped : Bool) :
    reword policy f ⟨true, escaped⟩ (w ++ rest) = w ++ reword policy f ⟨true, false⟩ rest := by
  rw [reword, markFrom_pieces_word_append hw hr]
  rfl

/-- A word outside literals is respelled. -/
theorem reword_word_outside {w rest : List Char} (hw : isWord w = true)
    (hr : beginsApart rest = true) (f : List Char → List Char) (escaped : Bool) :
    reword policy f ⟨false, escaped⟩ (w ++ rest) = f w ++ reword policy f ⟨false, false⟩ rest := by
  rw [reword, markFrom_pieces_word_append hw hr]
  rfl

theorem freeWordsFrom_word_inside {w rest : List Char} (hw : isWord w = true)
    (hr : beginsApart rest = true) (escaped : Bool) :
    freeWordsFrom policy ⟨true, escaped⟩ (w ++ rest) =
      freeWordsFrom policy ⟨true, false⟩ rest := by
  rw [freeWordsFrom, markFrom_pieces_word_append hw hr]
  rfl

theorem freeWordsFrom_word_outside {w rest : List Char} (hw : isWord w = true)
    (hr : beginsApart rest = true) (escaped : Bool) :
    freeWordsFrom policy ⟨false, escaped⟩ (w ++ rest) =
      w :: freeWordsFrom policy ⟨false, false⟩ rest := by
  rw [freeWordsFrom, markFrom_pieces_word_append hw hr]
  rfl

/-- Two texts with no word across their border are reworded one after the other. -/
theorem reword_append {a b : List Char} (h : areParted a b = true) (f : List Char → List Char)
    (s : State) :
    reword policy f s (a ++ b) = reword policy f s a ++ reword policy f (run policy s a) b := by
  rw [reword, pieces_append h, markFrom_append, List.flatMap_append, flatMap_chars_pieces]
  rfl

theorem freeWordsFrom_append {a b : List Char} (h : areParted a b = true) (s : State) :
    freeWordsFrom policy s (a ++ b) =
      freeWordsFrom policy s a ++ freeWordsFrom policy (run policy s a) b := by
  rw [freeWordsFrom, pieces_append h, markFrom_append, List.filterMap_append, flatMap_chars_pieces]
  rfl

/-- Only words are respelled, so a text that begins apart still does. -/
theorem beginsApart_reword (policy : QuotePolicy) {text : List Char}
    (h : beginsApart text = true) (f : List Char → List Char) (s : State) :
    beginsApart (reword policy f s text) = true := by
  cases text with
  | nil => rfl
  | cons c cs =>
      have hc : isWordChar c = false := by simpa using h
      rw [reword_cons_other hc]
      exact h

/-- To keep every spelling is to keep the text. -/
theorem reword_id (s : State) (text : List Char) : reword policy (fun w => w) s text = text := by
  suffices h : ∀ ps, (markFrom policy s ps).flatMap (respelled fun w => w) =
      ps.flatMap Piece.chars by
    rw [reword, h, flatMap_chars_pieces]
  intro ps
  induction ps generalizing s with
  | nil => rfl
  | cons p ps ih =>
      rw [markFrom_cons, List.flatMap_cons, List.flatMap_cons, ih]
      cases p with
      | word w => cases (Piece.word w).chars.head?.any (covers policy s) <;> rfl
      | other c => rfl

/-- Spellings that agree on the words outside literals reword alike. -/
theorem reword_congr {s : State} {text : List Char}
    (h : ∀ w ∈ freeWordsFrom policy s text, f w = g w) :
    reword policy f s text = reword policy g s text := by
  induction text using word_induction generalizing s with
  | nil => rfl
  | other c cs hc ih =>
      rw [freeWordsFrom_cons_other hc] at h
      rw [reword_cons_other hc, reword_cons_other hc, ih h]
  | word w rest hw hr ih =>
      obtain ⟨inside, escaped⟩ := s
      cases inside with
      | true =>
          rw [freeWordsFrom_word_inside hw hr] at h
          rw [reword_word_inside hw hr, reword_word_inside hw hr, ih h]
      | false =>
          rw [freeWordsFrom_word_outside hw hr] at h
          rw [reword_word_outside hw hr, reword_word_outside hw hr, h w (by simp),
            ih fun v hv => h v (List.mem_cons_of_mem w hv)]

/-! ### Rewording twice -/

/-- A change of spelling that writes a word or signs for a word and leaves all else alone. -/
structure IsRewording (f : List Char → List Char) : Prop where
  isWord_or_isSigns : ∀ w, isWord w = true → isWord (f w) = true ∨ isSigns (f w) = true
  eq_of_not_isWord : ∀ v, isWord v = false → f v = v

theorem IsRewording.id : IsRewording fun w => w :=
  ⟨fun _ h => .inl h, fun _ _ => rfl⟩

theorem IsRewording.comp (hg : IsRewording g) (hf : IsRewording f) : IsRewording (g ∘ f) where
  isWord_or_isSigns w hw := by
    rcases hf.isWord_or_isSigns w hw with h | h
    · exact hg.isWord_or_isSigns (f w) h
    · right
      rw [Function.comp_apply, hg.eq_of_not_isWord _ (isWord_eq_false_of_isSigns h)]
      exact h
  eq_of_not_isWord v hv := by
    rw [Function.comp_apply, hf.eq_of_not_isWord v hv, hg.eq_of_not_isWord v hv]

/-- A text with no word outside literals is copied. -/
theorem reword_of_freeWordsFrom_eq_nil {s : State} {text : List Char}
    (h : freeWordsFrom policy s text = []) (f : List Char → List Char) :
    reword policy f s text = text := by
  have hcongr : ∀ w ∈ freeWordsFrom policy s text, f w = w := by simp [h]
  rw [reword_congr hcongr, reword_id]

/-- Signs hold no word. -/
theorem freeWordsFrom_signs (policy : QuotePolicy) {v : List Char}
    (hv : ∀ c ∈ v, isWordChar c = false) (s : State) : freeWordsFrom policy s v = [] := by
  induction v generalizing s with
  | nil => rfl
  | cons c cs ih =>
      rw [freeWordsFrom_cons_other (hv c (by simp))]
      exact ih (fun d hd => hv d (List.mem_cons_of_mem c hd)) _

theorem areParted_of_isSigns {v : List Char} (hv : isSigns v = true) (rest : List Char) :
    areParted v rest = true := by
  cases hlast : v.getLast? with
  | none => simp [areParted, hlast]
  | some c => simp [areParted, hlast, isWordChar_of_isSigns hv (List.mem_of_getLast? hlast)]

theorem run_signs {v : List Char} (hv : isSigns v = true) (s : State) :
    run policy s v = ⟨s.inside, false⟩ :=
  run_of_inert (ne_nil_of_isSigns hv) (inert_of_isSigns hv policy) s

/-- Signs are copied, and the scanner goes on behind them where it was. -/
theorem reword_signs_append {v : List Char} (hv : isSigns v = true) (f : List Char → List Char)
    (s : State) (rest : List Char) :
    reword policy f s (v ++ rest) = v ++ reword policy f ⟨s.inside, false⟩ rest := by
  have hnone := freeWordsFrom_signs policy (fun c hc => isWordChar_of_isSigns hv hc) s
  rw [reword_append (areParted_of_isSigns hv rest), run_signs hv,
    reword_of_freeWordsFrom_eq_nil hnone]

theorem freeWordsFrom_signs_append {v : List Char} (hv : isSigns v = true) (s : State)
    (rest : List Char) :
    freeWordsFrom policy s (v ++ rest) = freeWordsFrom policy ⟨s.inside, false⟩ rest := by
  rw [freeWordsFrom_append (areParted_of_isSigns hv rest), run_signs hv,
    freeWordsFrom_signs policy fun c hc => isWordChar_of_isSigns hv hc]
  rfl

/-- Rewording a reworded text composes the spellings. -/
theorem reword_reword (hg : IsRewording g) (hf : IsRewording f) (s : State) (text : List Char) :
    reword policy g s (reword policy f s text) = reword policy (g ∘ f) s text := by
  induction text using word_induction generalizing s with
  | nil => rfl
  | other c cs hc ih => rw [reword_cons_other hc, reword_cons_other hc, reword_cons_other hc, ih]
  | word w rest hw hr ih =>
      have hr' := beginsApart_reword policy hr f
      obtain ⟨inside, escaped⟩ := s
      cases inside with
      | true =>
          rw [reword_word_inside hw hr, reword_word_inside hw (hr' _), reword_word_inside hw hr, ih]
      | false =>
          rw [reword_word_outside hw hr, reword_word_outside hw hr, Function.comp_apply]
          rcases hf.isWord_or_isSigns w hw with h | h
          · rw [reword_word_outside h (hr' _), ih]
          · rw [reword_signs_append h, ih, hg.eq_of_not_isWord _ (isWord_eq_false_of_isSigns h)]

/-- A word occurs in the reworded text as often as it is the new spelling of a word. -/
theorem count_freeWordsFrom_reword (hf : IsRewording f) {k : List Char} (hk : isWord k = true)
    (s : State) (text : List Char) :
    (freeWordsFrom policy s (reword policy f s text)).count k =
      ((freeWordsFrom policy s text).map f).count k := by
  induction text using word_induction generalizing s with
  | nil => rfl
  | other c cs hc ih =>
      rw [reword_cons_other hc, freeWordsFrom_cons_other hc, freeWordsFrom_cons_other hc, ih]
  | word w rest hw hr ih =>
      have hr' := beginsApart_reword policy hr f
      obtain ⟨inside, escaped⟩ := s
      cases inside with
      | true =>
          rw [reword_word_inside hw hr, freeWordsFrom_word_inside hw (hr' _),
            freeWordsFrom_word_inside hw hr, ih]
      | false =>
          rw [reword_word_outside hw hr, freeWordsFrom_word_outside hw hr, List.map_cons]
          rcases hf.isWord_or_isSigns w hw with h | h
          · rw [freeWordsFrom_word_outside h (hr' _), List.count_cons, List.count_cons, ih]
          · -- signs are no word, so they count for no keyword
            have hne : f w ≠ k := by
              rintro rfl
              rw [isWord_eq_false_of_isSigns h] at hk
              exact Bool.false_ne_true hk
            rw [freeWordsFrom_signs_append h, ih, List.count_cons_of_ne hne]

/-- Spellings that differ in words only reword alike just when they agree on every word outside
literals. -/
theorem reword_eq_reword_iff (h : ∀ w, f w = g w ∨ isWord (f w) = true ∧ isWord (g w) = true)
    (s : State) (text : List Char) :
    reword policy f s text = reword policy g s text ↔
      ∀ w ∈ freeWordsFrom policy s text, f w = g w := by
  refine ⟨fun heq => ?_, reword_congr⟩
  induction text using word_induction generalizing s with
  | nil => simp
  | other c cs hc ih =>
      rw [reword_cons_other hc, reword_cons_other hc] at heq
      rw [freeWordsFrom_cons_other hc]
      exact ih _ (List.cons.inj heq).2
  | word w rest hw hr ih =>
      obtain ⟨inside, escaped⟩ := s
      cases inside with
      | true =>
          rw [reword_word_inside hw hr, reword_word_inside hw hr] at heq
          rw [freeWordsFrom_word_inside hw hr]
          exact ih _ (List.append_cancel_left heq)
      | false =>
          rw [reword_word_outside hw hr, reword_word_outside hw hr] at heq
          rw [freeWordsFrom_word_outside hw hr]
          have hboth : f w = g w ∧ reword policy f ⟨false, false⟩ rest =
              reword policy g ⟨false, false⟩ rest := by
            rcases h w with hfg | ⟨hf, hg⟩
            · rw [hfg] at heq
              exact ⟨hfg, List.append_cancel_left heq⟩
            · exact word_append_inj hf hg (beginsApart_reword policy hr f _)
                (beginsApart_reword policy hr g _) heq
          simpa using ⟨hboth.1, ih _ hboth.2⟩

end Transcription
