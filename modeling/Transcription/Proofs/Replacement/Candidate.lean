import Transcription.Proofs.Text.Splice
import Transcription.Proofs.WholeWord

/-!
# Where a keyword is replaced

A keyword can be replaced at an offset of a text when it stands there with a word edge on both sides
and its first byte is not protected. Everything is judged on the text as it is given. A replacement
takes such candidates from the left, leaving out those that overlap one already taken, and splices
the text at the places that it has taken. A keyword may overlap itself, as in three letters with
blanks between them; one that is a word cannot, because its last letter would have to be a word
edge.
-/

namespace Transcription.Replacement

open Text Literal

/-- A keyword stands at an offset of a text as a whole word, and no literal holds its first byte. -/
def IsCandidate (policy : QuotePolicy) (text keyword : String) (q : Nat) : Prop :=
  ∃ before after, text.toList = before ++ (keyword.toList ++ after) ∧ String.utf8Len before = q ∧
    isEdge before.getLast? keyword.toList.head? = true ∧
    isEdge keyword.toList.getLast? after.head? = true ∧
    isProtected (scan policy text) q = false

variable {policy : QuotePolicy} {text keyword : String} {k r : List Char}

/-- The context after a text knows the text's last character. -/
theorem before_foldl_extend (policy : QuotePolicy) (u : List Char) :
    (u.foldl (Context.extend policy) .start).before = u.getLast? := by
  rcases List.eq_nil_or_concat u with rfl | ⟨u, c, rfl⟩
  · rfl
  · rw [List.concat_eq_append, List.foldl_append, List.getLast?_concat]
    rfl

/-- Behind the beginning of a text a character is free when its first byte is not protected. -/
theorem isFree_foldl_extend {before rest : List Char} (hne : rest ≠ [])
    (htext : text.toList = before ++ rest) :
    isFree policy (before.foldl (Context.extend policy) .start).literal rest =
      !isProtected (scan policy text) (String.utf8Len before) := by
  obtain ⟨c, cs, rfl⟩ := List.exists_cons_of_ne_nil hne
  have hmask := isProtected_scan_utf8Len policy before c cs
  rw [← htext, String.ofList_toList] at hmask
  rw [literal_foldl_extend, hmask]
  rfl

/-- A keyword is found where it has a word edge on both sides and is free. -/
theorem matchesAt_ofKeyword_append (policy : QuotePolicy) (k r : List Char) (ctx : Context)
    (after : List Char) :
    (ofKeyword policy k r).matchesAt ctx (k ++ after) =
      (isEdge ctx.before k.head? && isEdge k.getLast? after.head? &&
        isFree policy ctx.literal (k ++ after)) := by
  have hbegins : k.isPrefixOf (k ++ after) = true :=
    List.isPrefixOf_iff_prefix.mpr (List.prefix_append k after)
  rw [Substitution.matchesAt, target_ofKeyword, hbegins, Bool.true_and]
  simp only [ofKeyword, isWholeWord, List.drop_left]

/-- The substitution that replaces a keyword finds it at the candidates. -/
theorem standsAtOffset_ofKeyword_iff (hne : keyword.toList ≠ []) (r : List Char) (q : Nat) :
    (ofKeyword policy keyword.toList r).StandsAtOffset .start text.toList q ↔
      IsCandidate policy text keyword q := by
  have hmatch {before after : List Char}
      (htext : text.toList = before ++ (keyword.toList ++ after)) :
      (ofKeyword policy keyword.toList r).matchesAt
          (before.foldl (Context.extend policy) .start) (keyword.toList ++ after) = true ↔
        isEdge before.getLast? keyword.toList.head? = true ∧
        isEdge keyword.toList.getLast? after.head? = true ∧
        isProtected (scan policy text) (String.utf8Len before) = false := by
    rw [matchesAt_ofKeyword_append, before_foldl_extend,
      isFree_foldl_extend (List.append_ne_nil_of_left_ne_nil hne after) htext]
    simp only [Bool.and_eq_true, Bool.not_eq_true', and_assoc]
  constructor
  · rintro ⟨before, rest, htext, rfl, hm⟩
    obtain ⟨after, rfl⟩ := Substitution.exists_eq_append_of_matchesAt hm
    exact ⟨before, after, htext, rfl, (hmatch htext).mp hm⟩
  · rintro ⟨before, after, htext, rfl, hplace⟩
    exact ⟨before, keyword.toList ++ after, htext, rfl, (hmatch htext).mpr hplace⟩

/-- A text without the keyword has no candidates. -/
theorem not_isCandidate_of_not_infix (h : ¬ keyword.toList <:+: text.toList) (q : Nat) :
    ¬ IsCandidate policy text keyword q := by
  rintro ⟨before, after, htext, -⟩
  exact h ⟨before, after, by rw [htext, List.append_assoc]⟩

/-- Candidates of a keyword that is a word do not overlap. -/
theorem IsCandidate.add_le_of_lt (hword : isWord keyword.toList = true) {p q : Nat}
    (hp : IsCandidate policy text keyword p) (hq : IsCandidate policy text keyword q)
    (hlt : p < q) : p + keyword.utf8ByteSize ≤ q := by
  obtain ⟨before, after, htext, rfl, -, -, -⟩ := hp
  obtain ⟨before', after', htext', rfl, hedge, -, -⟩ := hq
  rw [htext] at htext'
  obtain ⟨m, rfl⟩ := isPrefix_of_utf8Len_le htext' hlt.le
  rw [String.utf8Len_append] at hlt ⊢
  rw [List.append_assoc] at htext'
  by_contra hover
  -- the second candidate would begin behind a letter of the first one
  have hwithin : m <+: keyword.toList := by
    refine isPrefix_of_utf8Len_le (List.append_cancel_left htext').symm ?_
    rw [String.utf8Len_toList]
    omega
  have hm : m ≠ [] := by
    rintro rfl
    simp at hlt
  have hletter : isWordChar (m.getLast hm) = true :=
    isWordChar_of_mem hword (hwithin.subset (List.getLast_mem hm))
  rw [List.getLast?_append_of_ne_nil _ hm, List.getLast?_eq_some_getLast hm, isEdge,
    Option.any_some, hletter, any_head?_of_isWord hword] at hedge
  exact absurd hedge (by decide)

/-- A replacement splices the text at the places that are chosen from the left among the
candidates, and counts them. -/
theorem exists_places_replaceWordCounted (policy : QuotePolicy) (text replacement : String)
    (hne : keyword.toList ≠ []) :
    ∃ places,
      IsLeftmostChoice (IsCandidate policy text keyword) keyword.utf8ByteSize places ∧
      replaceWordCounted policy text keyword replacement =
        (splice text keyword.utf8ByteSize replacement 0 places, places.length) := by
  obtain ⟨places, hplaces, hcount, hspliced⟩ :=
    Substitution.exists_splice_walk (s := ofKeyword policy keyword.toList replacement.toList)
      hne .start text.toList [] [] rfl
  have hcandidates : (ofKeyword policy keyword.toList replacement.toList).StandsAtOffset .start
      text.toList = IsCandidate policy text keyword :=
    funext fun q => propext (standsAtOffset_ofKeyword_iff hne replacement.toList q)
  rw [hcandidates, target_ofKeyword, String.utf8Len_toList] at hplaces
  rw [target_ofKeyword, replacement_ofKeyword, String.ofList_toList, String.utf8Len_toList]
    at hspliced
  refine ⟨places, hplaces, ?_⟩
  rw [replaceWordCounted, rewrite, Substitution.apply_of_target_ne_nil hne, hcount,
    ← List.nil_append (Rewritten.text _), ← hspliced]
  simp

/-- A keyword is replaced at the places that are chosen from the left among its candidates, the rest
of the text is kept, and the places are counted. A keyword that is a word is replaced at all of its
candidates, since no two of them overlap. A text that does not hold the keyword is kept. -/
theorem replaceWordCounted_eq_splice (policy : QuotePolicy) (text replacement : String)
    {keyword : String} (hne : keyword ≠ "") :
    ∃ places : List Nat,
      (∀ others, IsLeftmostChoice (IsCandidate policy text keyword) keyword.utf8ByteSize others ↔
        others = places) ∧
      replaceWordCounted policy text keyword replacement =
        (splice text keyword.utf8ByteSize replacement 0 places, places.length) ∧
      (isWord keyword.toList = true →
        (∀ p q, IsCandidate policy text keyword p → IsCandidate policy text keyword q → p < q →
          p + keyword.utf8ByteSize ≤ q) ∧
        ∀ q, q ∈ places ↔ IsCandidate policy text keyword q) ∧
      (¬ keyword.toList <:+: text.toList →
        replaceWordCounted policy text keyword replacement = (text, 0)) := by
  have htarget : keyword.toList ≠ [] := fun hnil => hne (String.toList_eq_nil_iff.mp hnil)
  have hwidth : 0 < keyword.utf8ByteSize :=
    Nat.pos_of_ne_zero fun hzero => hne (String.utf8ByteSize_eq_zero_iff.mp hzero)
  obtain ⟨places, hplaces, hresult⟩ :=
    exists_places_replaceWordCounted policy text replacement htarget
  refine ⟨places, ?_, hresult, ?_, ?_⟩
  · intro others
    constructor
    · intro hothers
      exact hothers.unique hplaces hwidth
    · rintro rfl
      exact hplaces
  · intro hword
    have hapart : ∀ p q, IsCandidate policy text keyword p → IsCandidate policy text keyword q →
        p < q → p + keyword.utf8ByteSize ≤ q := fun p q hp hq hlt => hp.add_le_of_lt hword hq hlt
    exact ⟨hapart, hplaces.mem_iff_of_apart hapart⟩
  · intro hnone
    have hnil : places = [] :=
      hplaces.unique (.nil fun q => not_isCandidate_of_not_infix hnone q) hwidth
    rw [hresult, hnil, splice_zero_nil]
    rfl

/-- A keyword that overlaps itself is taken once; behind a letter with an accent it stands whole,
and in a literal it is kept. The word within it is taken at each of its candidates, and a keyword
that the text does not hold leaves it as it is. -/
theorem replaceWordCounted_eq_splice_overlapping :
    let text := "é a a a \"a a\""
    ("a a" ≠ "" ∧ ∃ places : List Nat,
      IsLeftmostChoice (IsCandidate .escapeAware text "a a") "a a".utf8ByteSize places ∧
      splice text "a a".utf8ByteSize "b" 0 places = "é b a \"a a\"" ∧ places.length = 1) ∧
    ("a" ≠ "" ∧ isWord "a".toList = true ∧ ∃ places : List Nat,
      (∀ q, q ∈ places ↔ IsCandidate .escapeAware text "a" q) ∧ places.length = 3) ∧
    ("c" ≠ "" ∧ ¬ "c".toList <:+: text.toList ∧
      replaceWordCounted .escapeAware text "c" "b" = (text, 0)) := by
  refine ⟨?_, ?_, ?_⟩
  · have hne : "a a" ≠ "" := by decide
    have hrun : replaceWordCounted .escapeAware "é a a a \"a a\"" "a a" "b" =
        ("é b a \"a a\"", 1) := by decide
    obtain ⟨places, hplaces, hresult, -⟩ :=
      replaceWordCounted_eq_splice .escapeAware "é a a a \"a a\"" "b" hne
    obtain ⟨htext, hcount⟩ := Prod.mk.inj (hresult.symm.trans hrun)
    exact ⟨hne, places, (hplaces places).mpr rfl, htext, hcount⟩
  · have hne : "a" ≠ "" := by decide
    have hword : isWord "a".toList = true := by decide
    have hcount : (replaceWordCounted .escapeAware "é a a a \"a a\"" "a" "b").2 = 3 := by decide
    obtain ⟨places, -, hresult, hall, -⟩ :=
      replaceWordCounted_eq_splice .escapeAware "é a a a \"a a\"" "b" hne
    rw [hresult] at hcount
    exact ⟨hne, hword, places, (hall hword).2, hcount⟩
  · have hne : "c" ≠ "" := by decide
    have hletter : 'c' ∉ "é a a a \"a a\"".toList := by decide
    have hnone : ¬ "c".toList <:+: "é a a a \"a a\"".toList := fun hin =>
      hletter (hin.subset (List.mem_singleton_self 'c'))
    obtain ⟨_, -, -, -, hkept⟩ :=
      replaceWordCounted_eq_splice .escapeAware "é a a a \"a a\"" "b" hne
    exact ⟨hne, hnone, hkept hnone⟩

end Transcription.Replacement
