import Transcription.Json.Token

/-!
# Reading a string token back

A text is written between quotes with an escape for every character that may not stand there. The
scanner turns each escape back into one piece, a character or a UTF-16 unit, that spells the
character, so the token names the text that was written.
-/

namespace Transcription.Json

open Token

namespace Piece

/-- A unit that is no half of a surrogate pair spells its own character, whatever follows. -/
theorem chars?_unit {u : Nat} (hhigh : isHigh u = false) (hlow : isLow u = false)
    (ps : List Piece) : chars? (.unit u :: ps) = (chars? ps).map (Char.ofNat u :: ·) := by
  cases ps with
  | nil => simp [chars?, hhigh, hlow]
  | cons p ps => cases p <;> simp [chars?, hhigh, hlow]

end Piece

/-- The numeric escape of a character, by two hexadecimal digits. -/
def numericEscape (c : Char) : List Char :=
  ['\\', 'u', '0', '0', Nat.digitChar (c.toNat / 16), Nat.digitChar (c.toNat % 16)]

/-- The characters that have a short escape, each with its letter. -/
def shortEscapes : List (Char × Char) :=
  [('"', '"'), ('\\', '\\'), ('\x08', 'b'), ('\x0c', 'f'), ('\n', 'n'), ('\r', 'r'), ('\t', 't')]

theorem escape_of_mem_shortEscapes : ∀ m ∈ shortEscapes,
    escape m.1 = ['\\', m.2] ∧ m.2 ≠ 'u' ∧ shortEscape? m.2 = some m.1 := by
  decide

/-- A character is written by a short escape, by a numeric one if it is a control character, or as
itself. -/
theorem escape_cases (c : Char) :
    (∃ e, escape c = ['\\', e] ∧ e ≠ 'u' ∧ shortEscape? e = some c) ∨
    (escape c = numericEscape c ∧ isControl c = true) ∨
    (escape c = [c] ∧ c ≠ '"' ∧ c ≠ '\\' ∧ isControl c = false) := by
  by_cases hshort : ∃ m ∈ shortEscapes, c = m.1
  · obtain ⟨m, hm, rfl⟩ := hshort
    exact .inl ⟨m.2, escape_of_mem_shortEscapes m hm⟩
  · right
    simp only [shortEscapes, List.mem_cons, List.not_mem_nil, or_false, exists_eq_or_imp,
      exists_eq_left, not_or] at hshort
    obtain ⟨hquote, hslash, hb, hf, hn, hr, ht⟩ := hshort
    rw [escape, if_neg hquote, if_neg hslash, if_neg hb, if_neg hf, if_neg hn, if_neg hr, if_neg ht]
    by_cases hcontrol : isControl c = true
    · exact .inl ⟨if_pos hcontrol, hcontrol⟩
    · exact .inr ⟨if_neg hcontrol, hquote, hslash, by simpa using hcontrol⟩

/-! ### Steps of the scanner in a string token -/

section Steps

variable (tokens : List Token) (read : List Piece)

theorem step_string_slash :
    Scanner.step ⟨tokens, .string read⟩ '\\' = some ⟨tokens, .escape read⟩ := rfl

theorem step_string_char {c : Char} (hquote : c ≠ '"') (hslash : c ≠ '\\')
    (hcontrol : isControl c = false) :
    Scanner.step ⟨tokens, .string read⟩ c = some ⟨tokens, .string (.char c :: read)⟩ := by
  simp only [Scanner.step, hquote, hslash, hcontrol, Bool.false_eq_true, if_false]

theorem step_escape_u :
    Scanner.step ⟨tokens, .escape read⟩ 'u' = some ⟨tokens, .unit read 0 0⟩ := rfl

theorem step_escape_short {e c : Char} (hu : e ≠ 'u') (hshort : shortEscape? e = some c) :
    Scanner.step ⟨tokens, .escape read⟩ e = some ⟨tokens, .string (.char c :: read)⟩ := by
  simp only [Scanner.step, hu, hshort, if_false, Option.map_some]

theorem step_unit {h : Char} {d : Nat} (hdigit : Text.hexValue? h = some d) (digits value : Nat) :
    Scanner.step ⟨tokens, .unit read digits value⟩ h =
      if digits = 3 then some ⟨tokens, .string (.unit (value * 16 + d) :: read)⟩
      else some ⟨tokens, .unit read (digits + 1) (value * 16 + d)⟩ := by
  simp only [Scanner.step, hdigit, Option.map_some]
  split <;> rfl

end Steps

theorem foldlM_step_numericEscape {c : Char} (h : isControl c = true) (tokens : List Token)
    (read : List Piece) :
    (numericEscape c).foldlM Scanner.step ⟨tokens, .string read⟩ =
      some ⟨tokens, .string (.unit c.toNat :: read)⟩ := by
  have hlt : c.toNat < 0x20 := by simpa [isControl] using h
  have hupper := Text.hexValue?_digitChar (c.toNat / 16) (by omega)
  have hlower := Text.hexValue?_digitChar (c.toNat % 16) (by omega)
  have hzero : Text.hexValue? '0' = some 0 := by decide
  have hvalue : ((0 * 16 + 0) * 16 + 0) * 16 + c.toNat / 16 = c.toNat / 16 := by omega
  have hvalue' : c.toNat / 16 * 16 + c.toNat % 16 = c.toNat := by omega
  rw [numericEscape, List.foldlM_cons, step_string_slash, Option.bind_eq_bind, Option.bind_some,
    List.foldlM_cons, step_escape_u, Option.bind_eq_bind, Option.bind_some]
  simp only [List.foldlM_cons, List.foldlM_nil, Option.bind_eq_bind, Option.bind_some,
    step_unit tokens read hzero, step_unit tokens read hupper, step_unit tokens read hlower,
    Nat.reduceEqDiff, if_false, if_true, hvalue, hvalue']
  rfl

/-- Between quotes the scanner reads a written character as one piece that spells it. -/
theorem exists_foldlM_step_escape (c : Char) (tokens : List Token) (read : List Piece) :
    ∃ p : Piece, (escape c).foldlM Scanner.step ⟨tokens, .string read⟩ =
        some ⟨tokens, .string (p :: read)⟩ ∧
      ∀ ps, Piece.chars? (p :: ps) = (Piece.chars? ps).map (c :: ·) := by
  rcases escape_cases c with ⟨e, hescape, hu, hshort⟩ | ⟨hescape, hcontrol⟩ |
    ⟨hescape, hquote, hslash, hcontrol⟩
  · refine ⟨.char c, ?_, Piece.chars?_char c⟩
    rw [hescape, List.foldlM_cons, step_string_slash, Option.bind_eq_bind, Option.bind_some,
      List.foldlM_cons, step_escape_short tokens read hu hshort]
    rfl
  · refine ⟨.unit c.toNat, by rw [hescape, foldlM_step_numericEscape hcontrol], fun ps => ?_⟩
    have hlt : c.toNat < 0x20 := by simpa [isControl] using hcontrol
    have hhigh : Piece.isHigh c.toNat = false := by simp [Piece.isHigh]; omega
    have hlow : Piece.isLow c.toNat = false := by simp [Piece.isLow]; omega
    rw [Piece.chars?_unit hhigh hlow, Char.ofNat_toNat]
  · refine ⟨.char c, ?_, Piece.chars?_char c⟩
    rw [hescape, List.foldlM_cons, step_string_char tokens read hquote hslash hcontrol]
    rfl

/-- Between quotes the scanner reads written characters as pieces that spell them. -/
theorem exists_foldlM_step_flatMap_escape (cs : List Char) (tokens : List Token)
    (read : List Piece) :
    ∃ ps : List Piece, (cs.flatMap escape).foldlM Scanner.step ⟨tokens, .string read⟩ =
        some ⟨tokens, .string (ps.reverse ++ read)⟩ ∧ Piece.chars? ps = some cs := by
  induction cs generalizing read with
  | nil => exact ⟨[], rfl, rfl⟩
  | cons c cs ih =>
      obtain ⟨p, hp, hspell⟩ := exists_foldlM_step_escape c tokens read
      obtain ⟨ps, hps, hchars⟩ := ih (p :: read)
      refine ⟨p :: ps, ?_, by rw [hspell, hchars]; rfl⟩
      rw [List.flatMap_cons, List.foldlM_append, hp, Option.bind_eq_bind, Option.bind_some, hps]
      simp

/-- A written text is read as the token of that text. -/
theorem foldlM_step_quote (s : String) (tokens : List Token) :
    (quote s).foldlM Scanner.step ⟨tokens, .gap⟩ = some ⟨.text (some s) :: tokens, .gap⟩ := by
  obtain ⟨ps, hps, hchars⟩ := exists_foldlM_step_flatMap_escape s.toList tokens []
  have hopen : Scanner.step ⟨tokens, .gap⟩ '"' = some ⟨tokens, .string []⟩ := rfl
  have hclose : Scanner.step ⟨tokens, .string ps.reverse⟩ '"' =
      some ⟨.text (some s) :: tokens, .gap⟩ := by
    have htext : Piece.textOf ps = some s := by
      rw [Piece.textOf, hchars, Option.map_some, String.ofList_toList]
    simp [Scanner.step, Scanner.emit, htext]
  rw [List.append_nil] at hps
  rw [quote, List.cons_append, List.foldlM_cons, hopen, Option.bind_eq_bind, Option.bind_some,
    List.foldlM_append, hps, Option.bind_eq_bind, Option.bind_some, List.foldlM_cons, hclose]
  rfl

end Transcription.Json
