import Transcription.Proofs.Literal.Neutral
import Transcription.Proofs.Literal.Spans
import Transcription.Proofs.Replacement.Candidate

/-!
# The literals of a text in which a keyword is replaced

Of a keyword it is the first character alone that must not be protected. When the keyword is neutral
no literal begins within it, so one that begins outside literals lies outside them as a whole. And
when the replacement is neutral too, the scanner leaves it in the state in which it would have left
the keyword: the literals of the new text are those of the old one, and in the same order.
-/

namespace Transcription.Replacement

open Text Literal

variable {policy : QuotePolicy} {text keyword replacement : String} {k r : List Char}

/-- A neutral keyword is replaced outside literals only. -/
theorem inside_eq_false_of_matchesAt (hk : IsNeutral policy k) (hne : k ≠ []) {ctx : Context}
    {rest : List Char} (hm : (ofKeyword policy k r).matchesAt ctx (k ++ rest) = true) :
    ctx.literal.inside = false := by
  rw [matchesAt_ofKeyword_append, Bool.and_eq_true, isFree_append_of_inert hne hk.inert,
    Bool.not_eq_true'] at hm
  exact hm.2

/-- A walk that writes a neutral replacement for a neutral keyword keeps the literals. -/
theorem textsFrom_walk (hk : IsNeutral policy k) (hne : k ≠ []) (hr : IsNeutral policy r)
    (ctx : Context) (text : List Char) (hctx : IsReachable policy ctx.literal) :
    textsFrom policy ctx.literal ((ofKeyword policy k r).walk ctx 0 text).text =
      textsFrom policy ctx.literal text := by
  induction ctx, text using Substitution.walk_induction (s := ofKeyword policy k r) hne with
  | nil ctx => simp
  | replace ctx rest hm ih =>
      rw [target_ofKeyword] at hm ih ⊢
      have houtside := inside_eq_false_of_matchesAt hk hne hm
      have hafter : (k.foldl (ofKeyword policy k r).extend ctx).literal = ⟨false, false⟩ :=
        (literal_foldl_extend ctx k).trans (houtside ▸ hk.run_eq hctx)
      rw [Substitution.walk_of_matchesAt (target_ofKeyword policy k r) hne hm,
        Rewritten.text_replace, replacement_ofKeyword, hr.textsFrom_append hctx houtside,
        hk.textsFrom_append hctx houtside]
      rw [hafter] at ih
      exact ih (isReachable_settled false)
  | copy ctx c cs hm ih =>
      have hafter : ((ofKeyword policy k r).extend ctx c).literal = step policy ctx.literal c := rfl
      rw [hafter] at ih
      rw [Substitution.walk_cons_of_not_matchesAt hm, Rewritten.text_copy, textsFrom, textsFrom,
        ih (hctx.step c)]

/-- A text keeps its literals when a neutral replacement is written in it for a neutral keyword. -/
theorem texts_replaceWord_eq (hne : keyword.toList ≠ []) (hk : IsNeutral policy keyword.toList)
    (hr : IsNeutral policy replacement.toList) (text : String) :
    texts policy (replaceWord policy text keyword replacement) = texts policy text := by
  have htarget : (ofKeyword policy keyword.toList replacement.toList).target ≠ [] := hne
  rw [texts_eq, texts_eq, toList_replaceWord, rewrite, Substitution.apply_of_target_ne_nil htarget]
  exact congrArg (List.map String.ofList)
    (textsFrom_walk hk hne hr .start text.toList isReachable_start)

/-- A neutral keyword whose first byte is not protected begins outside literals. -/
theorem inside_run_eq_false (hk : IsNeutral policy keyword.toList) (hne : keyword.toList ≠ [])
    {before after : List Char} (htext : text.toList = before ++ (keyword.toList ++ after))
    (hfree : isProtected (scan policy text) (String.utf8Len before) = false) :
    (run policy .start before).inside = false := by
  have hfirst : isFree policy (before.foldl (Context.extend policy) .start).literal
      (keyword.toList ++ after) = !isProtected (scan policy text) (String.utf8Len before) :=
    isFree_foldl_extend (List.append_ne_nil_of_left_ne_nil hne after) htext
  rw [hfree, isFree_append_of_inert hne hk.inert, literal_foldl_extend, Bool.not_false,
    Bool.not_eq_true'] at hfirst
  exact hfirst

/-- No literal holds a byte of a candidate when the keyword is neutral. -/
theorem IsCandidate.isProtected_eq_false {q : Nat} (h : IsCandidate policy text keyword q)
    (hk : IsNeutral policy keyword.toList) {b : Nat} (hlo : q ≤ b)
    (hhi : b < q + keyword.utf8ByteSize) : isProtected (scan policy text) b = false := by
  obtain ⟨before, after, htext, rfl, -, -, hfree⟩ := h
  have hbyte : b - String.utf8Len before < String.utf8Len keyword.toList := by
    rw [String.utf8Len_toList]
    omega
  -- the byte belongs to a character of the keyword, and the scanner is outside literals before it
  obtain ⟨pre, c, post, hkeyword, hpre, hpost⟩ := exists_char_of_lt_utf8Len hbyte
  have hne : keyword.toList ≠ [] := by
    rw [hkeyword]
    exact List.append_ne_nil_of_right_ne_nil pre (List.cons_ne_nil c post)
  have houtside := inside_run_eq_false hk hne htext hfree
  have hinert := hk.inert
  rw [hkeyword, List.all_append, List.all_cons, Bool.and_eq_true, Bool.and_eq_true] at hinert
  have hread : text.toList = (before ++ pre) ++ c :: (post ++ after) := by simp [htext, hkeyword]
  have hlen : String.utf8Len (before ++ pre) = String.utf8Len before + String.utf8Len pre :=
    String.utf8Len_append before pre
  rw [scan, hread, isProtected_spansFrom (before ++ pre) c (post ++ after) (by simp [State.start])
    (by omega) (by omega), covers_of_isInert hinert.2.1, run_append, inside_run_of_inert hinert.1,
    houtside]

/-- A keyword and a replacement that are neutral under the policy leave the literals of a text as
they are and in order, and every place at which the keyword is replaced lies outside literals with
all of its bytes. -/
theorem texts_replaceWord (policy : QuotePolicy) (text : String) {keyword replacement : String}
    (hne : keyword ≠ "") (hk : IsNeutral policy keyword.toList)
    (hr : IsNeutral policy replacement.toList) :
    texts policy (replaceWord policy text keyword replacement) = texts policy text ∧
    ∃ places : List Nat,
      IsLeftmostChoice (IsCandidate policy text keyword) keyword.utf8ByteSize places ∧
      replaceWordCounted policy text keyword replacement =
        (splice text keyword.utf8ByteSize replacement 0 places, places.length) ∧
      ∀ q ∈ places, ∀ b, q ≤ b → b < q + keyword.utf8ByteSize →
        ∀ sp ∈ scan policy text, sp.contains b = false := by
  have htarget : keyword.toList ≠ [] := fun hnil => hne (String.toList_eq_nil_iff.mp hnil)
  obtain ⟨places, hplaces, hresult⟩ :=
    exists_places_replaceWordCounted policy text replacement htarget
  refine ⟨texts_replaceWord_eq htarget hk hr text, places, hplaces, hresult, ?_⟩
  intro q hq b hlo hhi sp hsp
  have hcandidate := hplaces.candidate_of_mem q hq
  exact contains_eq_false_of_isProtected_eq_false
    (hcandidate.isProtected_eq_false hk hlo hhi) hsp

/-- A keyword of signs is replaced at its one place outside the literal. Behind a backslash the
naive policy lets a word be taken away. -/
theorem texts_replaceWord_beside_quotes :
    ("->" ≠ "" ∧ IsNeutral .escapeAware "->".toList ∧ IsNeutral .escapeAware "é".toList ∧
      texts .escapeAware (replaceWord .escapeAware "\\\"x \"a->b\"a->b" "->" "é") = ["\"a->b\""] ∧
      ∃ places : List Nat, places.length = 1 ∧
        ∀ q ∈ places, ∀ b, q ≤ b → b < q + "->".utf8ByteSize →
          ∀ sp ∈ scan .escapeAware "\\\"x \"a->b\"a->b", sp.contains b = false) ∧
    ("use" ≠ "" ∧ IsNeutral .naive "use".toList ∧ IsNeutral .naive "".toList ∧
      texts .naive (replaceWord .naive "\\use\"x" "use" "") = ["\"x"]) := by
  constructor
  · have hne : "->" ≠ "" := by decide
    have hkeyword : IsNeutral .escapeAware "->".toList :=
      ⟨by decide, fun _ => by decide, fun _ => by decide⟩
    have hreplacement : IsNeutral .escapeAware "é".toList :=
      ⟨by decide, fun _ => by decide, fun _ => by decide⟩
    have hliterals : texts .escapeAware "\\\"x \"a->b\"a->b" = ["\"a->b\""] := by
      rw [texts_eq]
      decide
    have hcount : (replaceWordCounted .escapeAware "\\\"x \"a->b\"a->b" "->" "é").2 = 1 := by
      decide
    obtain ⟨hkept, places, -, hresult, houtside⟩ :=
      texts_replaceWord .escapeAware "\\\"x \"a->b\"a->b" hne hkeyword hreplacement
    rw [hresult] at hcount
    exact ⟨hne, hkeyword, hreplacement, hkept.trans hliterals, places, hcount, houtside⟩
  · have hne : "use" ≠ "" := by decide
    have hkeyword : IsNeutral .naive "use".toList := ⟨by decide, nofun, nofun⟩
    have hreplacement : IsNeutral .naive "".toList := ⟨by decide, nofun, nofun⟩
    have hliterals : texts .naive "\\use\"x" = ["\"x"] := by
      rw [texts_eq]
      decide
    have hkept := (texts_replaceWord .naive "\\use\"x" hne hkeyword hreplacement).1
    exact ⟨hne, hkeyword, hreplacement, hkept.trans hliterals⟩

-- where backslashes escape, an empty replacement lets the backslash escape the quote behind it
example : scan .escapeAware (replaceWord .escapeAware "\\use\"x" "use" "") = [] ∧
    scan .escapeAware "\\use\"x" = [⟨4, 6⟩] := by
  decide

end Transcription.Replacement
