import Transcription.Text.Word
import Mathlib.Data.String.Basic

/-!
# Words and the characters between them

A text is cut into pieces: each maximal run of word characters is one piece, and every other
character is a piece of its own. Cutting loses nothing, and it can be done on either side of a
border apart whenever no word runs across the border.

`word_induction` follows the cut: a text is empty, or it begins with a character that belongs to
no word, or it begins with a whole word.
-/

namespace Transcription.Text

/-- A nonempty run of word characters. -/
def isWord (w : List Char) : Bool :=
  !w.isEmpty && w.all isWordChar

theorem isWord_iff {w : List Char} : isWord w = true ↔ w ≠ [] ∧ ∀ c ∈ w, isWordChar c = true := by
  simp [isWord]

theorem ne_nil_of_isWord {w : List Char} (h : isWord w = true) : w ≠ [] :=
  (isWord_iff.mp h).1

theorem isWordChar_of_mem {w : List Char} (h : isWord w = true) {c : Char} (hc : c ∈ w) :
    isWordChar c = true :=
  (isWord_iff.mp h).2 c hc

/-- No word reaches into the text from its left. -/
def beginsApart (text : List Char) : Bool :=
  !text.head?.any isWordChar

@[simp] theorem beginsApart_nil : beginsApart [] = true := rfl

@[simp] theorem beginsApart_cons (c : Char) (cs : List Char) :
    beginsApart (c :: cs) = !isWordChar c := rfl

/-- No word runs across the border between two texts. -/
def areParted (a b : List Char) : Bool :=
  !(a.getLast?.any isWordChar && b.head?.any isWordChar)

@[simp] theorem areParted_nil_left (b : List Char) : areParted [] b = true := rfl

@[simp] theorem areParted_nil_right (a : List Char) : areParted a [] = true := by
  simp [areParted]

@[simp] theorem areParted_singleton (c : Char) (b : List Char) :
    areParted [c] b = (!isWordChar c || beginsApart b) := by
  simp [areParted, beginsApart]

@[simp] theorem areParted_cons_cons (c d : Char) (cs b : List Char) :
    areParted (c :: d :: cs) b = areParted (d :: cs) b := by
  simp [areParted]

/-- A piece of a text. -/
inductive Piece where
  | word (letters : List Char)
  | other (c : Char)
  deriving Repr, DecidableEq

/-- The characters of a piece. -/
def Piece.chars : Piece → List Char
  | .word w => w
  | .other c => [c]

@[simp] theorem Piece.chars_word (w : List Char) : (Piece.word w).chars = w := rfl

@[simp] theorem Piece.chars_other (c : Char) : (Piece.other c).chars = [c] := rfl

/-- Put a word character in front of pieces: it joins a word that stands there. -/
def joinWord (c : Char) : List Piece → List Piece
  | .word w :: ps => .word (c :: w) :: ps
  | ps => .word [c] :: ps

/-- The maximal words of a text and its other characters, from left to right. -/
def pieces : List Char → List Piece
  | [] => []
  | c :: cs => if isWordChar c then joinWord c (pieces cs) else .other c :: pieces cs

@[simp] theorem pieces_nil : pieces [] = [] := rfl

theorem pieces_cons_other {c : Char} (h : isWordChar c = false) (cs : List Char) :
    pieces (c :: cs) = .other c :: pieces cs := by
  simp [pieces, h]

theorem pieces_cons_word {c : Char} (h : isWordChar c = true) (cs : List Char) :
    pieces (c :: cs) = joinWord c (pieces cs) := by
  simp [pieces, h]

/-- A text that begins apart has no word as its first piece, so nothing joins it. -/
theorem joinWord_pieces {text : List Char} (h : beginsApart text = true) (c : Char) :
    joinWord c (pieces text) = .word [c] :: pieces text := by
  cases text with
  | nil => rfl
  | cons d ds =>
      have hd : isWordChar d = false := by simpa using h
      rw [pieces_cons_other hd]
      rfl

/-- A word in front of a text that begins apart is one piece. -/
theorem pieces_word_append {w rest : List Char} (hw : isWord w = true)
    (hr : beginsApart rest = true) : pieces (w ++ rest) = .word w :: pieces rest := by
  induction w with
  | nil => exact absurd rfl (ne_nil_of_isWord hw)
  | cons c cs ih =>
      have hc : isWordChar c = true := isWordChar_of_mem hw (by simp)
      rw [List.cons_append, pieces_cons_word hc]
      cases cs with
      | nil => exact joinWord_pieces hr c
      | cons d ds =>
          have htail : isWord (d :: ds) = true :=
            isWord_iff.mpr ⟨by simp, fun x hx => isWordChar_of_mem hw (List.mem_cons_of_mem c hx)⟩
          rw [ih htail]
          rfl

/-- Every text is empty, begins with a character that belongs to no word, or begins with a whole
word. -/
@[elab_as_elim]
theorem word_induction {motive : List Char → Prop} (nil : motive [])
    (other : ∀ c cs, isWordChar c = false → motive cs → motive (c :: cs))
    (word : ∀ w rest, isWord w = true → beginsApart rest = true → motive rest →
      motive (w ++ rest)) (text : List Char) : motive text := by
  -- the word in front of a text is as long as its run of word characters
  suffices h : ∀ n, ∀ t : List Char, t.length ≤ n → motive t from h _ text (Nat.le_refl _)
  intro n
  induction n with
  | zero =>
      intro t ht
      rw [List.length_eq_zero_iff.mp (Nat.le_zero.mp ht)]
      exact nil
  | succ n ih =>
      intro t ht
      cases t with
      | nil => exact nil
      | cons c cs =>
          rw [List.length_cons] at ht
          by_cases hc : isWordChar c = true
          · have hsplit : c :: cs = (c :: cs.takeWhile isWordChar) ++ cs.dropWhile isWordChar := by
              rw [List.cons_append, List.takeWhile_append_dropWhile]
            have hw : isWord (c :: cs.takeWhile isWordChar) = true := by
              simp [isWord, hc]
            have hr : beginsApart (cs.dropWhile isWordChar) = true := by
              have hhead := List.head?_dropWhile_not isWordChar cs
              rw [beginsApart]
              cases hd : (cs.dropWhile isWordChar).head? with
              | none => rfl
              | some d =>
                  rw [hd] at hhead
                  simpa using hhead
            have hlen : (cs.dropWhile isWordChar).length ≤ n := by
              have := (List.dropWhile_sublist (p := isWordChar) (l := cs)).length_le
              omega
            rw [hsplit]
            exact word _ _ hw hr (ih _ hlen)
          · exact other c cs (by simpa using hc) (ih cs (by omega))

/-- Of two texts that begin with words the words are equal when the texts are. -/
theorem word_append_inj {v w x y : List Char} (hv : isWord v = true) (hw : isWord w = true)
    (hx : beginsApart x = true) (hy : beginsApart y = true) (h : v ++ x = w ++ y) :
    v = w ∧ x = y := by
  have hpieces : pieces (v ++ x) = pieces (w ++ y) := congrArg pieces h
  rw [pieces_word_append hv hx, pieces_word_append hw hy] at hpieces
  have hvw : v = w := Piece.word.inj (List.cons.inj hpieces).1
  subst hvw
  exact ⟨rfl, List.append_cancel_left h⟩

/-- No character is lost. -/
theorem flatMap_chars_pieces (text : List Char) : (pieces text).flatMap Piece.chars = text := by
  induction text using word_induction with
  | nil => rfl
  | other c cs hc ih =>
      rw [pieces_cons_other hc, List.flatMap_cons, ih]
      rfl
  | word w rest hw hr ih => rw [pieces_word_append hw hr, List.flatMap_cons, ih, Piece.chars_word]

/-- A piece has characters. -/
theorem chars_ne_nil_of_mem_pieces (text : List Char) : ∀ p ∈ pieces text, p.chars ≠ [] := by
  induction text using word_induction with
  | nil => simp
  | other c cs hc ih => simpa [pieces_cons_other hc] using ih
  | word w rest hw hr ih => simpa [pieces_word_append hw hr, ne_nil_of_isWord hw] using ih

/-- Where no word runs across the border, the two sides are cut on their own. -/
theorem pieces_append {a b : List Char} (h : areParted a b = true) :
    pieces (a ++ b) = pieces a ++ pieces b := by
  induction a with
  | nil => rfl
  | cons c cs ih =>
      cases cs with
      | nil =>
          by_cases hc : isWordChar c = true
          · have hb : beginsApart b = true := by simpa [hc] using h
            simpa [pieces, hc, joinWord] using joinWord_pieces hb c
          · simp [pieces, hc]
      | cons d ds =>
          rw [areParted_cons_cons] at h
          rw [List.cons_append]
          by_cases hc : isWordChar c = true
          · rw [pieces_cons_word hc, pieces_cons_word hc, ih h]
            -- a nonempty text has a first piece, which decides what `c` joins
            cases hp : pieces (d :: ds) with
            | nil =>
                have := flatMap_chars_pieces (d :: ds)
                simp [hp] at this
            | cons p ps => cases p <;> rfl
          · rw [pieces_cons_other (by simpa using hc), pieces_cons_other (by simpa using hc), ih h]
            rfl

/-- Pieces with the offsets at which they begin, the first of them at `pos`. -/
def located (pos : Nat) : List Piece → List (Nat × Piece)
  | [] => []
  | p :: ps => (pos, p) :: located (pos + String.utf8Len p.chars) ps

end Transcription.Text
