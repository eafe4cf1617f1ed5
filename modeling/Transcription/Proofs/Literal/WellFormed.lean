import Transcription.Proofs.Literal.Search
import Transcription.Proofs.Literal.Spans
import Transcription.Proofs.Literal.Structural
import Transcription.Proofs.Text.Boundary

/-!
# Well-formed lists of spans

The spans of a scan take the structural quotes of a text in pairs, from left to right: a span begins
at one quote and ends just behind the next one. When the number of quotes is odd the last one has no
partner, and its span runs to the end of the text. All that holds of such a list is read off this
pairing: its spans come in order and lie apart, they are cut at boundaries of characters, and every
structural quote is an end of one of them and of no other.
-/

namespace Transcription.Literal

open Text

/-- The first quote at an offset or behind it. -/
structure IsNext (quote : Nat → Prop) (pos a : Nat) : Prop where
  le : pos ≤ a
  stands : quote a
  none_before : ∀ q, pos ≤ q → q < a → ¬ quote q

/-- The quotes from an offset on are taken in pairs, and a quote that is left over is paired with
the end of the text. -/
inductive IsPaired (quote : Nat → Prop) (stop : Nat) : Nat → List Span → Prop
  | none {pos : Nat} (hnone : ∀ q, pos ≤ q → ¬ quote q) : IsPaired quote stop pos []
  | last {pos a : Nat} (ha : IsNext quote pos a) (hnone : ∀ q, a < q → ¬ quote q) :
      IsPaired quote stop pos [⟨a, stop⟩]
  | pair {pos a b : Nat} {spans : List Span} (ha : IsNext quote pos a)
      (hb : IsNext quote (a + 1) b) (hrest : IsPaired quote stop (b + 1) spans) :
      IsPaired quote stop pos (⟨a, b + 1⟩ :: spans)

/-- A span ends just behind the next quote after its first. -/
def IsTerminated (quote : Nat → Prop) (sp : Span) : Prop :=
  ∃ b, IsNext quote (sp.start + 1) b ∧ sp.stop = b + 1

/-- A span has no quote after its first, and it ends with the text. -/
def IsUnterminated (quote : Nat → Prop) (stop : Nat) (sp : Span) : Prop :=
  sp.stop = stop ∧ ∀ q, sp.start < q → ¬ quote q

variable {quote : Nat → Prop} {stop pos : Nat} {spans : List Span}

theorem IsNext.of_le {pos' a : Nat} (h : IsNext quote pos' a) (hle : pos ≤ pos')
    (hnone : ∀ q, pos ≤ q → q < pos' → ¬ quote q) : IsNext quote pos a where
  le := Nat.le_trans hle h.le
  stands := h.stands
  none_before q hlo hhi := by
    by_cases hq : q < pos'
    · exact hnone q hlo hq
    · exact h.none_before q (Nat.not_lt.mp hq) hhi

theorem isNext_self {a : Nat} (h : quote a) : IsNext quote a a where
  le := Nat.le_refl a
  stands := h
  none_before _ hlo hhi := absurd hhi (Nat.not_lt.mpr hlo)

namespace IsPaired

/-- Where no quote stands, the pairing is the one from further on. -/
theorem of_le {pos' : Nat} (h : IsPaired quote stop pos' spans) (hle : pos ≤ pos')
    (hnone : ∀ q, pos ≤ q → q < pos' → ¬ quote q) : IsPaired quote stop pos spans := by
  cases h with
  | none hlater =>
      refine .none fun q hq => ?_
      by_cases hlt : q < pos'
      · exact hnone q hq hlt
      · exact hlater q (Nat.not_lt.mp hlt)
  | last ha hlater => exact .last (ha.of_le hle hnone) hlater
  | pair ha hb hrest => exact .pair (ha.of_le hle hnone) hb hrest

/-- The spans begin from the offset on, and none of them is empty. -/
theorem bounds (h : IsPaired quote stop pos spans) (hstop : ∀ q, quote q → q < stop) {sp : Span}
    (hmem : sp ∈ spans) : pos ≤ sp.start ∧ sp.start < sp.stop := by
  induction h with
  | none => simp at hmem
  | last ha =>
      obtain rfl := List.mem_singleton.mp hmem
      exact ⟨ha.le, hstop _ ha.stands⟩
  | pair ha hb _ ih =>
      have := ha.le
      have := hb.le
      rcases List.mem_cons.mp hmem with rfl | hlater
      · exact ⟨ha.le, by simp only; omega⟩
      · have := ih hlater
        omega

theorem quote_start (h : IsPaired quote stop pos spans) {sp : Span} (hmem : sp ∈ spans) :
    quote sp.start := by
  induction h with
  | none => simp at hmem
  | last ha =>
      obtain rfl := List.mem_singleton.mp hmem
      exact ha.stands
  | pair ha _ _ ih =>
      rcases List.mem_cons.mp hmem with rfl | hlater
      · exact ha.stands
      · exact ih hlater

/-- A span is terminated, unless it is the last one and runs to the end. -/
theorem isTerminated_or (h : IsPaired quote stop pos spans) {before after : List Span} {sp : Span}
    (hsplit : spans = before ++ sp :: after) :
    IsTerminated quote sp ∨ after = [] ∧ IsUnterminated quote stop sp := by
  induction h generalizing before with
  | none => simp at hsplit
  | last ha hnone =>
      cases before with
      | nil =>
          obtain ⟨rfl, rfl⟩ := List.cons.inj hsplit
          exact .inr ⟨rfl, rfl, hnone⟩
      | cons t before => simp at hsplit
  | pair ha hb _ ih =>
      cases before with
      | nil =>
          obtain ⟨rfl, -⟩ := List.cons.inj hsplit
          exact .inl ⟨_, hb, rfl⟩
      | cons t before =>
          obtain ⟨-, hrest⟩ := List.cons.inj hsplit
          exact ih hrest

/-- Every quote is the first or the last character of one span. -/
theorem existsUnique (h : IsPaired quote stop pos spans) (hstop : ∀ q, quote q → q < stop) {q : Nat}
    (hq : quote q) (hpos : pos ≤ q) : ∃! sp, sp ∈ spans ∧ (q = sp.start ∨ q + 1 = sp.stop) := by
  induction h with
  | none hnone => exact absurd hq (hnone q hpos)
  | @last pos a ha hnone =>
      have hqa : q = a := by
        rcases Nat.lt_trichotomy q a with hlt | heq | hgt
        · exact absurd hq (ha.none_before q hpos hlt)
        · exact heq
        · exact absurd hq (hnone q hgt)
      exact ⟨_, ⟨List.mem_singleton_self _, .inl hqa⟩, fun sp hsp => List.mem_singleton.mp hsp.1⟩
  | @pair pos a b spans ha hb hrest ih =>
      by_cases hfirst : q ≤ b
      · have hends : q = a ∨ q + 1 = b + 1 := by
          rcases Nat.lt_trichotomy q a with hlt | heq | hgt
          · exact absurd hq (ha.none_before q hpos hlt)
          · exact .inl heq
          · rcases Nat.lt_or_eq_of_le hfirst with hlt | heq
            · exact absurd hq (hb.none_before q hgt hlt)
            · exact .inr (congrArg (· + 1) heq)
        refine ⟨_, ⟨List.mem_cons_self, hends⟩, ?_⟩
        rintro sp ⟨hmem, hsp⟩
        rcases List.mem_cons.mp hmem with rfl | hlater
        · rfl
        · have := hrest.bounds hstop hlater
          omega
      · obtain ⟨sp, ⟨hmem, hsp⟩, hunique⟩ := ih (by omega)
        refine ⟨sp, ⟨List.mem_cons_of_mem _ hmem, hsp⟩, ?_⟩
        rintro other ⟨hmem', hother⟩
        rcases List.mem_cons.mp hmem' with rfl | hlater
        · have := hb.le
          simp only at hother
          omega
        · exact hunique other ⟨hlater, hother⟩

end IsPaired

variable {policy : QuotePolicy} {text : String}

theorem IsStructuralAt.isBoundary {q : Nat} (h : IsStructuralAt policy text q) :
    IsBoundary text q ∧ IsBoundary text (q + 1) := by
  obtain ⟨before, after, htext, rfl, -⟩ := h
  refine ⟨isBoundary_utf8Len htext, ?_⟩
  have hbehind : text.toList = (before ++ ['"']) ++ after := by simp [htext]
  have hlen : String.utf8Len (before ++ ['"']) = String.utf8Len before + 1 := by
    rw [String.utf8Len_append]
    rfl
  exact hlen ▸ isBoundary_utf8Len hbehind

theorem IsStructuralAt.lt {q : Nat} (h : IsStructuralAt policy text q) : q < text.utf8ByteSize :=
  h.isBoundary.2.le

/-- The scanner pairs the structural quotes that it has not read yet, beginning with the one at
which the open literal began, if there is one. -/
theorem isPaired_spansFrom {pre rest : List Char} (htext : text.toList = pre ++ rest) (start : Nat)
    (hopen : (run policy .start pre).inside = true →
      IsStructuralAt policy text start ∧ start < String.utf8Len pre ∧
        ∀ q, start < q → q < String.utf8Len pre → ¬ IsStructuralAt policy text q) :
    IsPaired (IsStructuralAt policy text) text.utf8ByteSize
      (if (run policy .start pre).inside then start else String.utf8Len pre)
      (spansFrom policy (run policy .start pre) start (String.utf8Len pre) rest) := by
  induction rest generalizing pre start with
  | nil =>
      have hend : String.utf8Len pre = text.utf8ByteSize := by
        rw [← String.utf8Len_toList, htext, List.append_nil]
      cases hi : (run policy .start pre).inside with
      | false =>
          simp only [spansFrom, hi, Bool.false_eq_true, if_false]
          exact .none fun q hq hquote => absurd hquote.lt (by omega)
      | true =>
          obtain ⟨hquote, -, hnone⟩ := hopen hi
          simp only [spansFrom, hi, if_true, hend]
          refine .last (isNext_self hquote) fun q hq hlater => hnone q hq ?_ hlater
          exact hend ▸ hlater.lt
  | cons c cs ih =>
      have hread : text.toList = (pre ++ [c]) ++ cs := by simp [htext]
      have hlen : String.utf8Len (pre ++ [c]) = String.utf8Len pre + c.utf8Size := by simp
      have hturns : (run policy .start (pre ++ [c])).inside = _ := inside_run_concat htext
      have hgap : ¬ IsStructuralAt policy text (String.utf8Len pre) →
          ∀ q, String.utf8Len pre ≤ q → q < String.utf8Len pre + c.utf8Size →
            ¬ IsStructuralAt policy text q := by
        intro hnone q hlo hhi
        rcases Nat.eq_or_lt_of_le hlo with rfl | hlt
        · exact hnone
        · exact not_isStructuralAt_within htext hlt hhi
      have hrest := ih hread
      have hstep : run policy .start (pre ++ [c]) = step policy (run policy .start pre) c := by
        rw [run_append, run_cons, run_nil]
      rw [hlen, hstep] at hrest
      rw [hstep] at hturns
      cases hi : (run policy .start pre).inside <;>
        cases hn : (step policy (run policy .start pre) c).inside <;>
        rw [hi, hn] at hturns <;>
        simp only [hn, Bool.false_eq_true, if_false, if_true, false_implies,
          true_implies] at hrest <;>
        simp only [spansFrom, hi, hn, Bool.false_eq_true, if_false, if_true]
      · -- no literal is open before or after the character
        have hnone : ¬ IsStructuralAt policy text (String.utf8Len pre) := by simpa using hturns
        exact (hrest start).of_le (Nat.le_add_right _ _) (hgap hnone)
      · -- a literal begins with the character
        have hquote : IsStructuralAt policy text (String.utf8Len pre) := by simpa using hturns
        refine hrest _ ⟨hquote, Nat.lt_add_of_pos_right c.utf8Size_pos, fun q hlo hhi => ?_⟩
        exact not_isStructuralAt_within htext hlo hhi
      · -- the literal ends with the character
        have hquote : IsStructuralAt policy text (String.utf8Len pre) := by simpa using hturns
        obtain ⟨hstart, hlt, hnone⟩ := hopen hi
        rw [hquote.utf8Size_eq htext] at hrest ⊢
        exact .pair (isNext_self hstart) ⟨hlt, hquote, hnone⟩ (hrest start)
      · -- the literal goes on
        have hnone : ¬ IsStructuralAt policy text (String.utf8Len pre) := by simpa using hturns
        obtain ⟨hstart, hlt, hbefore⟩ := hopen hi
        refine hrest start ⟨hstart, Nat.lt_add_right _ hlt, fun q hlo hhi => ?_⟩
        by_cases hq : q < String.utf8Len pre
        · exact hbefore q hlo hq
        · exact hgap hnone q (Nat.not_lt.mp hq) hhi

theorem isPaired_scan (policy : QuotePolicy) (text : String) :
    IsPaired (IsStructuralAt policy text) text.utf8ByteSize 0 (scan policy text) := by
  have htext : text.toList = [] ++ text.toList := rfl
  exact isPaired_spansFrom htext 0 (by simp [State.start])

/-- What can be relied on in a list of spans: each of them holds a literal, and every structural
quote of the text delimits one. -/
structure IsWellFormed (policy : QuotePolicy) (text : String) (spans : List Span) : Prop where
  start_lt_stop : ∀ sp ∈ spans, sp.start < sp.stop
  stop_le : ∀ sp ∈ spans, sp.stop ≤ text.utf8ByteSize
  isBoundary : ∀ sp ∈ spans, IsBoundary text sp.start ∧ IsBoundary text sp.stop
  ordered : spans.Pairwise fun a b => a.start < b.start ∧ a.stop ≤ b.start
  isStructuralAt_start : ∀ sp ∈ spans, IsStructuralAt policy text sp.start
  isTerminated_or : ∀ before sp after, spans = before ++ sp :: after →
    IsTerminated (IsStructuralAt policy text) sp ∨
      after = [] ∧ IsUnterminated (IsStructuralAt policy text) text.utf8ByteSize sp
  existsUnique : ∀ q, IsStructuralAt policy text q →
    ∃! sp, sp ∈ spans ∧ (q = sp.start ∨ q + 1 = sp.stop)

/-- A span is cut at boundaries, whether it is terminated or runs to the end. -/
theorem isBoundary_of_mem_scan {sp : Span} (h : sp ∈ scan policy text) :
    IsBoundary text sp.start ∧ IsBoundary text sp.stop := by
  have hpaired := isPaired_scan policy text
  refine ⟨(hpaired.quote_start h).isBoundary.1, ?_⟩
  obtain ⟨before, after, hsplit⟩ := List.append_of_mem h
  rcases hpaired.isTerminated_or hsplit with ⟨b, hb, hstop⟩ | ⟨-, hstop, -⟩
  · exact hstop ▸ hb.stands.isBoundary.2
  · exact hstop ▸ isBoundary_utf8ByteSize text

/-- A scan gives a well-formed list of spans. Its order lets a lookup that halves the list find the
span that holds an offset, if there is one. -/
theorem scan_isWellFormed (policy : QuotePolicy) (text : String) :
    IsWellFormed policy text (scan policy text) ∧
      ∀ pos, isProtectedByHalving (scan policy text) pos = isProtected (scan policy text) pos ∧
        (isProtected (scan policy text) pos = true ↔
          ∃ sp ∈ scan policy text, sp.contains pos = true) := by
  have hpaired := isPaired_scan policy text
  have hlt (q : Nat) (hq : IsStructuralAt policy text q) : q < text.utf8ByteSize := hq.lt
  have hspan : ∀ sp ∈ scan policy text, sp.start < sp.stop :=
    fun _ hsp => (hpaired.bounds hlt hsp).2
  have hordered : (scan policy text).Pairwise fun a b => a.start < b.start ∧ a.stop ≤ b.start :=
    (pairwise_scan policy text).imp_of_mem fun ha _ hle =>
      ⟨Nat.lt_of_lt_of_le (hspan _ ha) hle, hle⟩
  refine ⟨?_, fun pos => ⟨?_, ?_⟩⟩
  · exact {
      start_lt_stop := hspan
      stop_le := fun sp hsp => (isBoundary_of_mem_scan hsp).2.le
      isBoundary := fun sp hsp => isBoundary_of_mem_scan hsp
      ordered := hordered
      isStructuralAt_start := fun sp hsp => hpaired.quote_start hsp
      isTerminated_or := fun before sp after hsplit => hpaired.isTerminated_or hsplit
      existsUnique := fun q hq => hpaired.existsUnique hlt hq (Nat.zero_le q) }
  · exact isProtectedByHalving_eq (hordered.imp fun hab => hab.1.le) pos
  · constructor
    · exact exists_contains_of_isProtected
    · rintro ⟨sp, hsp, hcontains⟩
      exact isProtected_of_contains (pairwise_scan policy text) hspan hsp hcontains

end Transcription.Literal
