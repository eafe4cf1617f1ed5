import Transcription.Literal
import Transcription.Text.Word
import Mathlib.Algebra.Group.Nat.Even
import Mathlib.Data.List.Induction

/-!
# Runs of the literal scanner

`run` reads a whole text from a given state. A character that the quote policy gives no meaning to
is inert: it leaves an open literal open and a closed one closed, and it uses up a pending escape.
A text that is inert throughout therefore acts on the scanner like any other such text, as long as
both have a character to be escaped.

A text is closed when the scanner has nothing pending after it: no literal is open and the next
character keeps its meaning. What follows a closed text is scanned as if it stood alone.
-/

namespace Transcription.Literal

/-- Read a text from a given state. -/
def run (policy : QuotePolicy) (s : State) (cs : List Char) : State :=
  cs.foldl (step policy) s

@[simp] theorem run_nil (policy : QuotePolicy) (s : State) : run policy s [] = s := rfl

@[simp] theorem run_cons (policy : QuotePolicy) (s : State) (c : Char) (cs : List Char) :
    run policy s (c :: cs) = run policy (step policy s c) cs := rfl

@[simp] theorem run_append (policy : QuotePolicy) (s : State) (a b : List Char) :
    run policy s (a ++ b) = run policy (run policy s a) b :=
  List.foldl_append

/-- Whether a character neither delimits a literal nor takes the meaning of the next one away. -/
def isInert (policy : QuotePolicy) (c : Char) : Bool :=
  c != '"' && (policy == .naive || c != '\\')

theorem ne_quote_of_isInert {policy : QuotePolicy} {c : Char} (h : isInert policy c = true) :
    c ≠ '"' := by
  simp only [isInert, Bool.and_eq_true, bne_iff_ne] at h
  exact h.1

/-- An inert character settles the scanner where it is. -/
theorem step_of_isInert {policy : QuotePolicy} {c : Char} (h : isInert policy c = true)
    (s : State) : step policy s c = ⟨s.inside, false⟩ := by
  obtain ⟨inside, escaped⟩ := s
  have hq := ne_quote_of_isInert h
  cases escaped with
  | true => rfl
  | false => cases policy <;> simp_all [step, isInert]

theorem covers_of_isInert {policy : QuotePolicy} {c : Char} (h : isInert policy c = true)
    (s : State) : covers policy s c = s.inside := by
  simp [covers, step_of_isInert h]

/-- The first character of an inert text belongs to the literal that is open, if there is one. -/
theorem any_head?_covers_of_inert {policy : QuotePolicy} {cs : List Char} (hne : cs ≠ [])
    (h : cs.all (isInert policy) = true) (s : State) :
    cs.head?.any (covers policy s) = s.inside := by
  obtain ⟨c, cs, rfl⟩ := List.exists_cons_of_ne_nil hne
  rw [List.all_cons, Bool.and_eq_true] at h
  exact covers_of_isInert h.1 s

/-- A nonempty inert text settles the scanner where it is. -/
theorem run_of_inert {policy : QuotePolicy} {cs : List Char} (hne : cs ≠ [])
    (h : cs.all (isInert policy) = true) (s : State) : run policy s cs = ⟨s.inside, false⟩ := by
  induction cs generalizing s with
  | nil => exact absurd rfl hne
  | cons c cs ih =>
      rw [List.all_cons, Bool.and_eq_true] at h
      rw [run_cons, step_of_isInert h.1]
      cases cs with
      | nil => rfl
      | cons d ds => exact ih (by simp) h.2 _

/-- Word characters are inert under either policy. -/
theorem isInert_of_isWordChar {c : Char} (h : Text.isWordChar c = true) (policy : QuotePolicy) :
    isInert policy c = true := by
  have hq : c ≠ '"' := by rintro rfl; exact absurd h (by decide)
  have hb : c ≠ '\\' := by rintro rfl; exact absurd h (by decide)
  simp [isInert, hq, hb]

/-- How many backslashes a text ends in. -/
def backslashRun (cs : List Char) : Nat :=
  (cs.reverse.takeWhile (· == '\\')).length

@[simp] theorem backslashRun_nil : backslashRun [] = 0 := rfl

theorem backslashRun_append_singleton (cs : List Char) (c : Char) :
    backslashRun (cs ++ [c]) = if c = '\\' then backslashRun cs + 1 else 0 := by
  by_cases h : c = '\\' <;> simp [backslashRun, h]

/-- The escape-aware scanner waits for an escaped character exactly after an odd run of
backslashes. -/
theorem escaped_run_iff (cs : List Char) :
    (run .escapeAware .start cs).escaped = true ↔ ¬ Even (backslashRun cs) := by
  induction cs using List.reverseRecOn with
  | nil => simp [State.start]
  | append_singleton cs c ih =>
      rw [run_append, backslashRun_append_singleton]
      generalize run .escapeAware .start cs = s at ih ⊢
      obtain ⟨inside, escaped⟩ := s
      by_cases hb : c = '\\'
      · cases escaped <;> simp_all [step, Nat.even_add_one]
      · cases escaped <;> by_cases hq : c = '"' <;> simp [step, hb, hq]

/-- The naive scanner never waits for an escaped character. -/
theorem escaped_run_naive {s : State} (h : s.escaped = false) (cs : List Char) :
    (run .naive s cs).escaped = false := by
  induction cs generalizing s with
  | nil => exact h
  | cons c cs ih => exact ih (step_naive_escaped h c)

/-- The scanner waits for no escaped character when the policy looks at no backslash or the run of
backslashes is even. -/
theorem escaped_run_eq_false_iff (policy : QuotePolicy) (cs : List Char) :
    (run policy .start cs).escaped = false ↔ policy = .naive ∨ Even (backslashRun cs) := by
  cases policy with
  | escapeAware =>
      rw [← Bool.not_eq_true, escaped_run_iff, not_not]
      simp
  | naive => simp [escaped_run_naive (s := .start) rfl cs]

/-- A quote that the scanner does not pass over takes it into a literal or out of one, and nothing
else does. -/
theorem inside_step (policy : QuotePolicy) (s : State) (c : Char) :
    (step policy s c).inside = (s.inside ^^ (decide (c = '"') && !s.escaped)) := by
  obtain ⟨inside, escaped⟩ := s
  cases escaped with
  | true => simp
  | false =>
      by_cases hq : c = '"'
      · simp [step, hq]
      · by_cases hb : c = '\\' <;> cases policy <;> simp [step, hq, hb]

/-- Whether the scanner is inside a literal at the end of a text, which is then unterminated. -/
def endsOpen (policy : QuotePolicy) (text : String) : Bool :=
  (run policy .start text.toList).inside

/-- A text is closed when it leaves no literal unterminated and, where backslashes escape, does not
end in an odd run of them. -/
structure IsClosed (policy : QuotePolicy) (text : String) : Prop where
  not_endsOpen : endsOpen policy text = false
  even_backslashRun : policy = .escapeAware → Even (backslashRun text.toList)

/-- A closed text leaves the scanner as it found it. -/
theorem IsClosed.run_eq {policy : QuotePolicy} {text : String} (h : IsClosed policy text) :
    run policy .start text.toList = .start := by
  have hinside : (run policy .start text.toList).inside = false := h.not_endsOpen
  have hescaped : (run policy .start text.toList).escaped = false := by
    rw [escaped_run_eq_false_iff]
    cases policy with
    | escapeAware => exact .inr (h.even_backslashRun rfl)
    | naive => exact .inl rfl
  generalize run policy .start text.toList = s at hinside hescaped ⊢
  obtain ⟨inside, escaped⟩ := s
  simp_all [State.start]

end Transcription.Literal
