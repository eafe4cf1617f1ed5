import Transcription.Proofs.Literal.Run
import Mathlib.Data.String.Basic

/-!
# The texts of literals

A span of a scan stands for the part of the text between its offsets. `texts` reads these parts
off. The scanner can also list them on its way, without any offset: when it starts inside a
literal, the first of them is what is left of that literal.

Inert characters never begin or end a literal. A run of them outside literals leaves no trace in
the list, and inside a literal it is a part of the first text.
-/

namespace Transcription

/-- The part of a text that a span holds. -/
def Span.text (sp : Span) (text : String) : String :=
  String.Pos.Raw.extract text ⟨sp.start⟩ ⟨sp.stop⟩

theorem Span.text_eq {text : String} {pre mid post : List Char}
    (h : text.toList = pre ++ mid ++ post) :
    (Span.mk (String.utf8Len pre) (String.utf8Len (pre ++ mid))).text text = String.ofList mid := by
  have htext : text = String.ofList (pre ++ mid ++ post) := by rw [← h, String.ofList_toList]
  rw [Span.text, htext, String.utf8Len_append]
  exact String.extract_of_valid pre mid post

namespace Literal

variable {policy : QuotePolicy}

/-- The literals of a text with their quotes, from left to right. -/
def texts (policy : QuotePolicy) (text : String) : List String :=
  (scan policy text).map fun sp => sp.text text

@[simp] theorem length_texts (policy : QuotePolicy) (text : String) :
    (texts policy text).length = (scan policy text).length := by
  simp [texts]

/-- Put characters in front of the first text of a list. -/
def prependFirst (v : List Char) (ts : List (List Char)) : List (List Char) :=
  ts.modifyHead (v ++ ·)

@[simp] theorem prependFirst_nil_right (v : List Char) : prependFirst v [] = [] := rfl

@[simp] theorem prependFirst_cons (v t : List Char) (ts : List (List Char)) :
    prependFirst v (t :: ts) = (v ++ t) :: ts := rfl

@[simp] theorem prependFirst_nil_left (ts : List (List Char)) : prependFirst [] ts = ts := by
  cases ts <;> rfl

@[simp] theorem prependFirst_prependFirst (v w : List Char) (ts : List (List Char)) :
    prependFirst v (prependFirst w ts) = prependFirst (v ++ w) ts := by
  cases ts with
  | nil => rfl
  | cons t ts => simp

/-- The literals of a text that is read from a given state. When a literal is open, what is left
of it comes first. -/
def textsFrom (policy : QuotePolicy) (s : State) : List Char → List (List Char)
  | [] => if s.inside then [[]] else []
  | c :: cs =>
    let later := textsFrom policy (step policy s c) cs
    match s.inside, (step policy s c).inside with
    | false, false => later
    | true, false => [c] :: later
    | _, true => prependFirst [c] later

/-- The spans of a scan hold the literals that the scanner lists on its way, after what it has read
of an open one. -/
theorem map_text_spansFrom {text : String} (s : State) (start : Nat) (pre opened rest : List Char)
    (htext : text.toList = pre ++ opened ++ rest)
    (hinside : s.inside = true → start = String.utf8Len pre)
    (houtside : s.inside = false → opened = []) :
    (spansFrom policy s start (String.utf8Len (pre ++ opened)) rest).map (fun sp => sp.text text) =
      (prependFirst opened (textsFrom policy s rest)).map String.ofList := by
  induction rest generalizing s start pre opened with
  | nil =>
      cases hi : s.inside with
      | false => simp [spansFrom, textsFrom, hi]
      | true =>
          simp only [spansFrom, textsFrom, hi, if_true, List.map_cons, hinside hi]
          rw [Span.text_eq htext]
          simp
  | cons c cs ih =>
      have hstop : String.utf8Len (pre ++ opened) + c.utf8Size =
          String.utf8Len (pre ++ (opened ++ [c])) := by
        rw [← List.append_assoc, String.utf8Len_append (pre ++ opened)]
        simp
      have hread : text.toList = pre ++ (opened ++ [c]) ++ cs := by simp [htext]
      cases hi : s.inside <;> cases hn : (step policy s c).inside <;>
        simp only [spansFrom, textsFrom, hi, hn, hstop]
      · -- no literal is open before or after the character
        have htail := ih (step policy s c) start (pre ++ (opened ++ [c])) [] (by simpa using hread)
          (by simp [hn]) (fun _ => rfl)
        simpa [houtside hi] using htail
      · -- a literal begins with the character
        have hnil : opened = [] := houtside hi
        subst hnil
        rw [prependFirst_nil_left, List.append_nil]
        exact ih (step policy s c) _ pre [c] hread (fun _ => rfl) (by simp [hn])
      · -- the literal ends with the character
        have htail := ih (step policy s c) start (pre ++ (opened ++ [c])) [] (by simpa using hread)
          (by simp [hn]) (fun _ => rfl)
        rw [List.append_nil, prependFirst_nil_left] at htail
        rw [List.map_cons, hinside hi, Span.text_eq hread, ← hinside hi, htail]
        rfl
      · -- the literal goes on
        have htail := ih (step policy s c) start pre (opened ++ [c]) hread (fun _ => hinside hi)
          (by simp [hn])
        rw [htail, prependFirst_prependFirst]

/-- The literals of a text are those that the scanner lists. -/
theorem texts_eq (policy : QuotePolicy) (text : String) :
    texts policy text = (textsFrom policy .start text.toList).map String.ofList := by
  rw [← prependFirst_nil_left (textsFrom policy .start text.toList)]
  exact map_text_spansFrom .start 0 [] [] text.toList rfl (fun _ => rfl) (fun _ => rfl)

/-- Inside a literal the first text listed is a beginning of what is read. -/
theorem exists_textsFrom_eq_cons (policy : QuotePolicy) {s : State} (hs : s.inside = true)
    (text : List Char) :
    ∃ first later, textsFrom policy s text = first :: later ∧ first <+: text := by
  induction text generalizing s with
  | nil => exact ⟨[], [], by simp [textsFrom, hs], List.nil_prefix⟩
  | cons c cs ih =>
      cases hn : (step policy s c).inside with
      | false =>
          refine ⟨[c], textsFrom policy (step policy s c) cs, by simp [textsFrom, hs, hn], ?_⟩
          exact List.cons_prefix_cons.mpr ⟨rfl, List.nil_prefix⟩
      | true =>
          obtain ⟨first, later, heq, hprefix⟩ := ih hn
          refine ⟨c :: first, later, by simp [textsFrom, hs, hn, heq], ?_⟩
          exact List.cons_prefix_cons.mpr ⟨rfl, hprefix⟩

/-- A run of inert characters in a literal is read into it. -/
theorem textsFrom_inert_inside {v : List Char} (hne : v ≠ []) (hv : v.all (isInert policy) = true)
    (escaped : Bool) (rest : List Char) :
    textsFrom policy ⟨true, escaped⟩ (v ++ rest) =
      prependFirst v (textsFrom policy ⟨true, false⟩ rest) := by
  induction v generalizing escaped with
  | nil => exact absurd rfl hne
  | cons c cs ih =>
      rw [List.all_cons, Bool.and_eq_true] at hv
      rw [List.cons_append, textsFrom, step_of_isInert hv.1]
      cases cs with
      | nil => rfl
      | cons d ds =>
          rw [ih (by simp) hv.2]
          exact prependFirst_prependFirst [c] (d :: ds) _

/-- A run of inert characters outside literals is passed over. -/
theorem textsFrom_inert_outside {v : List Char} (hne : v ≠ [])
    (hv : v.all (isInert policy) = true) (escaped : Bool) (rest : List Char) :
    textsFrom policy ⟨false, escaped⟩ (v ++ rest) = textsFrom policy ⟨false, false⟩ rest := by
  induction v generalizing escaped with
  | nil => exact absurd rfl hne
  | cons c cs ih =>
      rw [List.all_cons, Bool.and_eq_true] at hv
      rw [List.cons_append, textsFrom, step_of_isInert hv.1]
      cases cs with
      | nil => rfl
      | cons d ds => exact ih (by simp) hv.2 false

end Literal

end Transcription
