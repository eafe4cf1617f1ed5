import Transcription.Proofs.Literal.Texts

/-!
# Texts that leave literals alone

A text is neutral under a policy when the scanner, outside literals, comes out of it as it would
out of any other such text: it holds no double quote, and where backslashes escape it holds no
backslash and is not empty. An empty text would let a backslash before it act on what follows, so
that taking a word away behind a backslash can take the meaning of a quote away.
-/

namespace Transcription.Literal

variable {policy : QuotePolicy} {s : State} {v : List Char}

/-- A text neither opens a literal nor closes one, and it uses up an escape that is pending. -/
structure IsNeutral (policy : QuotePolicy) (v : List Char) : Prop where
  quote_not_mem : '"' ∉ v
  backslash_not_mem : policy = .escapeAware → '\\' ∉ v
  ne_nil : policy = .escapeAware → v ≠ []

theorem IsNeutral.inert (h : IsNeutral policy v) : v.all (isInert policy) = true := by
  refine List.all_eq_true.mpr fun c hc => ?_
  have hquote : c ≠ '"' := fun heq => h.quote_not_mem (heq ▸ hc)
  cases policy with
  | naive => simp [isInert, hquote]
  | escapeAware =>
      have hbackslash : c ≠ '\\' := fun heq => h.backslash_not_mem rfl (heq ▸ hc)
      simp [isInert, hquote, hbackslash]

/-- The scanner can be in a state: under the naive policy it waits for no escaped character. -/
def IsReachable (policy : QuotePolicy) (s : State) : Prop :=
  policy = .naive → s.escaped = false

theorem isReachable_start : IsReachable policy .start := fun _ => rfl

theorem isReachable_settled (inside : Bool) : IsReachable policy ⟨inside, false⟩ := fun _ => rfl

theorem IsReachable.step (h : IsReachable policy s) (c : Char) :
    IsReachable policy (step policy s c) := by
  intro hnaive
  subst hnaive
  exact step_naive_escaped (h rfl) c

/-- An inert text leaves an open literal open and a closed one closed. -/
theorem inside_run_of_inert (h : v.all (isInert policy) = true) (s : State) :
    (run policy s v).inside = s.inside := by
  cases v with
  | nil => rfl
  | cons c cs => rw [run_of_inert (List.cons_ne_nil c cs) h]

/-- Where nothing at all is neutral, no escape is pending. -/
theorem IsNeutral.settled_of_nil (h : IsNeutral policy []) (hs : IsReachable policy s) :
    s = ⟨s.inside, false⟩ := by
  cases policy with
  | naive => rw [← hs rfl]
  | escapeAware => exact absurd rfl (h.ne_nil rfl)

/-- A neutral text settles the scanner where it is. -/
theorem IsNeutral.run_eq (h : IsNeutral policy v) (hs : IsReachable policy s) :
    run policy s v = ⟨s.inside, false⟩ := by
  cases v with
  | nil => exact h.settled_of_nil hs
  | cons c cs => exact run_of_inert (List.cons_ne_nil c cs) h.inert s

/-- A neutral text outside literals leaves no trace in the list of literals. -/
theorem IsNeutral.textsFrom_append (h : IsNeutral policy v) (hs : IsReachable policy s)
    (houtside : s.inside = false) (rest : List Char) :
    textsFrom policy s (v ++ rest) = textsFrom policy ⟨false, false⟩ rest := by
  cases v with
  | nil => rw [List.nil_append, h.settled_of_nil hs, houtside]
  | cons c cs =>
      obtain ⟨inside, escaped⟩ := s
      obtain rfl : inside = false := houtside
      exact textsFrom_inert_outside (List.cons_ne_nil c cs) h.inert escaped rest

end Transcription.Literal
