import Transcription.Proofs.Literal.Unescaped
import Mathlib.Algebra.Ring.Parity

/-!
# Where the quote policies agree

The two policies read a text alike until they meet an escaped quote, which the naive scanner counts
and the escape-aware one passes over. Outside a literal the naive scanner then opens one that the
other does not know of. Inside a literal it closes the one that both have open, which the other goes
on with; the two lists differ as soon as another character follows. Only when the text ends there is
no difference left: the one scanner ends the literal with the quote, the other with the text.
-/

namespace Transcription.Literal

open Text

variable {policy : QuotePolicy}

/-- One escaped quote alone: it is the last character of the text, and the number of double quotes
before it is odd. -/
def HasLastQuoteEscaped (text : String) : Prop :=
  ∃ before, text.toList = before ++ ['"'] ∧ ¬ Even (backslashRun before) ∧
    HasNoEscapedQuote (String.ofList before) ∧ Odd (before.count '"')

/-- In a text that is read from a state an escaped quote is met at the end alone, and within a
literal. -/
def MeetsLastQuoteEscaped (s : State) (cs : List Char) : Prop :=
  ∃ before, cs = before ++ ['"'] ∧ MeetsNoEscapedQuote s before ∧
    run .escapeAware s before = ⟨true, true⟩

theorem meetsNoEscapedQuote_nil (s : State) : MeetsNoEscapedQuote s [] := by
  intro pre post hsplit
  simp at hsplit

/-- Behind a character that is no escaped quote it is the rest of the text that counts. -/
theorem meetsLastQuoteEscaped_cons {s : State} {c : Char} {cs : List Char}
    (h : c = '"' → s.escaped = false) :
    MeetsLastQuoteEscaped s (c :: cs) ↔ MeetsLastQuoteEscaped (step .escapeAware s c) cs := by
  constructor
  · rintro ⟨before, hsplit, hmeets, hrun⟩
    cases before with
    | nil =>
        obtain ⟨hquote, -⟩ := List.cons.inj hsplit
        rw [run_nil] at hrun
        rw [hrun] at h
        exact Bool.noConfusion (h hquote)
    | cons d before =>
        obtain ⟨rfl, hrest⟩ := List.cons.inj hsplit
        exact ⟨before, hrest, (meetsNoEscapedQuote_cons.mp hmeets).2, hrun⟩
  · rintro ⟨before, rfl, hmeets, hrun⟩
    exact ⟨c :: before, rfl, meetsNoEscapedQuote_cons.mpr ⟨h, hmeets⟩, hrun⟩

/-- An escaped quote is the last one when it ends the text within a literal. -/
theorem meetsLastQuoteEscaped_quote (inside : Bool) (cs : List Char) :
    MeetsLastQuoteEscaped ⟨inside, true⟩ ('"' :: cs) ↔ inside = true ∧ cs = [] := by
  constructor
  · rintro ⟨before, hsplit, hmeets, hrun⟩
    cases before with
    | nil => exact ⟨congrArg State.inside hrun, (List.cons.inj hsplit).2⟩
    | cons d before =>
        -- the first quote is escaped, so nothing stands before it
        obtain ⟨rfl, -⟩ := List.cons.inj hsplit
        exact Bool.noConfusion ((meetsNoEscapedQuote_cons.mp hmeets).1 rfl)
  · rintro ⟨rfl, rfl⟩
    exact ⟨[], rfl, meetsNoEscapedQuote_nil _, rfl⟩

/-- Inside a literal the first span found holds the next character. -/
theorem exists_spansFrom_cons_eq_cons {s : State} (hs : s.inside = true) (start pos : Nat)
    (c : Char) (cs : List Char) :
    ∃ stop rest, spansFrom policy s start pos (c :: cs) = ⟨start, stop⟩ :: rest ∧ pos < stop := by
  have hsize := c.utf8Size_pos
  cases hn : (step policy s c).inside with
  | false =>
      exact ⟨pos + c.utf8Size, spansFrom policy (step policy s c) start (pos + c.utf8Size) cs,
        by simp only [spansFrom, hs, hn], by omega⟩
  | true =>
      obtain ⟨stop, rest, heq, hle, -⟩ := exists_spansFrom_eq_cons hn start (pos + c.utf8Size) cs
      exact ⟨stop, rest, by simpa only [spansFrom, hs, hn] using heq, by omega⟩

/-- At an escaped quote the scanners part, unless the text ends with it within a literal. -/
theorem spansFrom_quote_eq_iff (inside : Bool) (start pos : Nat) (cs : List Char) :
    spansFrom .naive ⟨inside, false⟩ start pos ('"' :: cs) =
        spansFrom .escapeAware ⟨inside, true⟩ start pos ('"' :: cs) ↔
      inside = true ∧ cs = [] := by
  have hnaive : step .naive ⟨inside, false⟩ '"' = ⟨!inside, false⟩ := by simp [step]
  cases inside with
  | false =>
      -- the naive scanner opens a literal here, and no span of the other begins so early
      obtain ⟨stop, rest, hopened, -⟩ :=
        @exists_spansFrom_eq_cons .naive ⟨true, false⟩ rfl pos (pos + '"'.utf8Size) cs
      simp only [spansFrom, hnaive, step_escaped, Bool.not_false, hopened]
      constructor
      · intro heq
        have hmem : (⟨pos, stop⟩ : Span) ∈ spansFrom .escapeAware ⟨false, false⟩ start
            (pos + '"'.utf8Size) cs := heq ▸ List.mem_cons_self
        have hlater := pos_le_start_of_mem_spansFrom rfl hmem
        have hsize := '"'.utf8Size_pos
        simp only at hlater
        omega
      · rintro ⟨hinside, -⟩
        exact Bool.noConfusion hinside
  | true =>
      simp only [spansFrom, hnaive, step_escaped, Bool.not_true, true_and]
      cases cs with
      | nil => simp [spansFrom]
      | cons d ds =>
          -- the literal that the naive scanner closes here goes on for the other
          obtain ⟨stop, rest, hopen, hlt⟩ :=
            @exists_spansFrom_cons_eq_cons .escapeAware ⟨true, false⟩ rfl start
              (pos + '"'.utf8Size) d ds
          rw [hopen]
          constructor
          · intro heq
            have hstop := congrArg Span.stop (List.cons.inj heq).1
            simp only at hstop
            omega
          · intro hnil
            exact absurd hnil (List.cons_ne_nil d ds)

/-- From one state the scanners find the same spans just when the text has no escaped quote, or one
at its end within a literal. -/
theorem spansFrom_naive_eq_iff (s : State) (start pos : Nat) (cs : List Char) :
    spansFrom .naive ⟨s.inside, false⟩ start pos cs = spansFrom .escapeAware s start pos cs ↔
      MeetsNoEscapedQuote s cs ∨ MeetsLastQuoteEscaped s cs := by
  induction cs generalizing s start pos with
  | nil => simp [spansFrom, meetsNoEscapedQuote_nil]
  | cons c cs ih =>
      by_cases hunescaped : c = '"' → s.escaped = false
      · -- both scanners take the same step
        have hnaive := step_naive_of_unescaped hunescaped
        have hrest := ih (step .escapeAware s c)
        rw [meetsNoEscapedQuote_cons, and_iff_right hunescaped,
          meetsLastQuoteEscaped_cons hunescaped]
        cases hi : s.inside <;> cases hn : (step .escapeAware s c).inside <;>
          rw [hi, hn] at hnaive <;> rw [hn] at hrest <;> simp only [spansFrom, hi, hn, hnaive]
        · exact hrest start _
        · exact hrest pos _
        · rw [List.cons_inj_right]
          exact hrest start _
        · exact hrest start _
      · obtain ⟨rfl, hescaped⟩ := Classical.not_imp.mp hunescaped
        obtain ⟨inside, escaped⟩ := s
        obtain rfl : escaped = true := by simpa using hescaped
        have hmeets : ¬ MeetsNoEscapedQuote ⟨inside, true⟩ ('"' :: cs) := fun hmeets =>
          hunescaped (meetsNoEscapedQuote_cons.mp hmeets).1
        rw [or_iff_right hmeets, meetsLastQuoteEscaped_quote]
        exact spansFrom_quote_eq_iff inside start pos cs

/-- Without escaped quotes both scanners are inside a literal together. -/
theorem inside_run_of_meets {s : State} {cs : List Char} (h : MeetsNoEscapedQuote s cs) :
    (run .naive ⟨s.inside, false⟩ cs).inside = (run .escapeAware s cs).inside := by
  induction cs generalizing s with
  | nil => rfl
  | cons c cs ih =>
      obtain ⟨hquote, hrest⟩ := meetsNoEscapedQuote_cons.mp h
      rw [run_cons, step_naive_of_unescaped hquote, ih hrest, run_cons]

/-- The naive scanner is inside a literal after an odd number of quotes. -/
theorem inside_run_naive_iff_odd (cs : List Char) :
    (run .naive .start cs).inside = true ↔ Odd (cs.count '"') := by
  induction cs using List.reverseRecOn with
  | nil => simp [State.start]
  | append_singleton cs c ih =>
      have hescaped := escaped_run_naive (s := .start) rfl cs
      rw [run_append, run_cons, run_nil, inside_step, hescaped, List.count_append]
      by_cases hq : c = '"'
      · rw [hq, List.count_singleton_self, Nat.odd_add_one, ← ih]
        simp
      · have hnone : List.count '"' [c] = 0 := List.count_eq_zero.mpr (by simpa using Ne.symm hq)
        rw [hnone, Nat.add_zero, ← ih, decide_eq_false hq, Bool.false_and, Bool.xor_false]

theorem hasLastQuoteEscaped_iff_meets {text : String} :
    HasLastQuoteEscaped text ↔ MeetsLastQuoteEscaped .start text.toList := by
  have hcut (before : List Char) :
      ¬ Even (backslashRun before) ∧ HasNoEscapedQuote (String.ofList before) ∧
          Odd (before.count '"') ↔
        MeetsNoEscapedQuote .start before ∧ run .escapeAware .start before = ⟨true, true⟩ := by
    rw [hasNoEscapedQuote_iff_meets, String.toList_ofList, ← escaped_run_iff,
      ← inside_run_naive_iff_odd]
    constructor
    · rintro ⟨hescaped, hmeets, hinside⟩
      refine ⟨hmeets, ?_⟩
      have hboth : (run .escapeAware .start before).inside = true :=
        (inside_run_of_meets hmeets).symm.trans hinside
      generalize run .escapeAware .start before = s at hescaped hboth ⊢
      obtain ⟨inside, escaped⟩ := s
      exact congrArg₂ State.mk hboth hescaped
    · rintro ⟨hmeets, hrun⟩
      refine ⟨congrArg State.escaped hrun, hmeets, ?_⟩
      exact (inside_run_of_meets hmeets).trans (congrArg State.inside hrun)
  exact exists_congr fun before => and_congr_right fun _ => hcut before

/-- The policies find the same literals in a text just when it has no escaped quote, or when the
only one is its last character and stands behind an odd number of quotes. -/
theorem scan_naive_eq_iff (text : String) :
    scan .naive text = scan .escapeAware text ↔
      HasNoEscapedQuote text ∨ HasLastQuoteEscaped text := by
  rw [hasNoEscapedQuote_iff_meets, hasLastQuoteEscaped_iff_meets]
  exact spansFrom_naive_eq_iff .start 0 0 text.toList

end Transcription.Literal
