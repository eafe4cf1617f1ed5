import Transcription.Proofs.Replacement.Candidate
import Transcription.Proofs.Text.Boundary

/-!
# Replacement by offsets

A keyword can be replaced without taking a text apart into characters: a cursor goes over the bytes
of the text and takes slices of it, behind its position to look for the keyword, on both sides of
the keyword to look for word edges, and between the last replacement and its position to write what
is kept. A slice that is out of range or cuts a character fails, and then the whole replacement
does.

No slice fails. The cursor moves by the width of the character that it stands before or, where the
bytes of the keyword stand, by the width of the keyword; both lead from one boundary to another one.
Each of these moves is a step of the walk over the characters of the text, so the result is the
same.
-/

namespace Transcription.Replacement

open Text Literal

/-- Whether a keyword that stands at an offset has a word edge on both sides. -/
def wholeWordAt? (text keyword : String) (start : Nat) : Option Bool := do
  let before ← slice? text 0 start
  let after ← slice? text (start + keyword.utf8ByteSize) text.utf8ByteSize
  return isEdge before.toList.getLast? keyword.toList.head? &&
    isEdge keyword.toList.getLast? after.toList.head?

/-- Whether a keyword is replaced at an offset, behind which a text goes on with `rest`. Its word
edges are looked at only where its bytes stand. -/
def chosenAt? (policy : QuotePolicy) (text keyword rest : String) (pos : Nat) : Option Bool :=
  if OccursAt rest keyword 0 then
    (wholeWordAt? text keyword pos).map fun whole =>
      whole && !isProtected (scan policy text) pos
  else
    some false

/-- How far a replacement has come. -/
structure Cursor where
  /-- The offset that is looked at. -/
  pos : Nat
  /-- The offset up to which the text has been dealt with: the end of the last keyword replaced. -/
  settled : Nat
  /-- What has been written for the text up to there. -/
  written : String
  count : Nat

namespace Cursor

/-- Nothing has been looked at. -/
def start : Cursor := ⟨0, 0, "", 0⟩

/-- Replace the keyword here and write it behind what is kept. -/
def replace (keyword replacement kept : String) (c : Cursor) : Cursor :=
  ⟨c.pos + keyword.utf8ByteSize, c.pos + keyword.utf8ByteSize, c.written ++ kept ++ replacement,
    c.count + 1⟩

/-- Pass over one character. -/
def pass (next : Char) (c : Cursor) : Cursor :=
  { c with pos := c.pos + next.utf8Size }

/-- Go on by one keyword or one character. -/
def step? (policy : QuotePolicy) (text keyword replacement : String) (c : Cursor) :
    Option Cursor := do
  let rest ← slice? text c.pos text.utf8ByteSize
  if ← chosenAt? policy text keyword rest c.pos then
    let kept ← slice? text c.settled c.pos
    return c.replace keyword replacement kept
  else
    let next ← rest.toList.head?
    return c.pass next

/-- Write the rest of the text. -/
def finish? (text : String) (c : Cursor) : Option (String × Nat) :=
  (slice? text c.settled text.utf8ByteSize).map fun rest => (c.written ++ rest, c.count)

/-- Go on to the end of the text. To go on without an end is a failure too. -/
def run? (policy : QuotePolicy) (text keyword replacement : String) (c : Cursor) :
    Option (String × Nat) :=
  if c.pos < text.utf8ByteSize then
    (c.step? policy text keyword replacement).bind fun next =>
      if c.pos < next.pos then next.run? policy text keyword replacement else none
  else
    c.finish? text
termination_by text.utf8ByteSize - c.pos

/-- A cursor has come to stand in a text: `done` has been dealt with, `opened` has been passed over
since, and `rest` is still to come. What has been written, what has been passed over and what the
walk makes of the rest are the result. -/
structure IsAt (policy : QuotePolicy) (text keyword replacement : String) (c : Cursor)
    (done opened rest : List Char) : Prop where
  text_eq : text.toList = done ++ opened ++ rest
  settled_eq : c.settled = String.utf8Len done
  pos_eq : c.pos = String.utf8Len (done ++ opened)
  result_eq : rewrite policy keyword.toList replacement.toList text.toList =
    let later := (ofKeyword policy keyword.toList replacement.toList).walk
      ((done ++ opened).foldl (Context.extend policy) .start) 0 rest
    ⟨c.written.toList ++ opened ++ later.text, c.count + later.count⟩

end Cursor

variable {policy : QuotePolicy} {text keyword replacement : String} {c next : Cursor}
  {done opened rest : List Char}

theorem wholeWordAt?_eq {before after : List Char}
    (h : text.toList = before ++ keyword.toList ++ after) :
    wholeWordAt? text keyword (String.utf8Len before) =
      some (isEdge before.getLast? keyword.toList.head? &&
        isEdge keyword.toList.getLast? after.head?) := by
  have hbehind := slice?_behind h
  rw [String.utf8Len_append, String.utf8Len_toList] at hbehind
  rw [wholeWordAt?, slice?_before (h.trans (List.append_assoc _ _ _)), hbehind]
  simp

/-- The keyword is replaced at an offset where the walk over the characters finds it. -/
theorem chosenAt?_eq (policy : QuotePolicy) (replacement : String) (hne : keyword ≠ "")
    {before : List Char} (hrest : rest ≠ []) (h : text.toList = before ++ rest) :
    chosenAt? policy text keyword (String.ofList rest) (String.utf8Len before) =
      some ((ofKeyword policy keyword.toList replacement.toList).matchesAt
        (before.foldl (Context.extend policy) .start) rest) := by
  rw [chosenAt?]
  by_cases hoccurs : OccursAt (String.ofList rest) keyword 0
  · obtain ⟨after, hafter⟩ := (occursAt_zero_iff hne).mp hoccurs
    rw [String.toList_ofList] at hafter
    have hread : text.toList = before ++ keyword.toList ++ after := by
      rw [h, ← hafter, List.append_assoc]
    rw [if_pos hoccurs, wholeWordAt?_eq hread, ← hafter, matchesAt_ofKeyword_append,
      before_foldl_extend, hafter, isFree_foldl_extend hrest h]
    rfl
  · have hnone : keyword.toList.isPrefixOf rest = false := by
      rw [← Bool.not_eq_true, List.isPrefixOf_iff_prefix]
      rwa [occursAt_zero_iff hne, String.toList_ofList] at hoccurs
    rw [if_neg hoccurs, Substitution.matchesAt, target_ofKeyword, hnone, Bool.false_and]

namespace Cursor.IsAt

/-- The cursor stands before the end of the text when something is still to come. -/
theorem pos_lt_iff (h : c.IsAt policy text keyword replacement done opened rest) :
    c.pos < text.utf8ByteSize ↔ rest ≠ [] := by
  have hlen : text.utf8ByteSize = c.pos + String.utf8Len rest := by
    rw [← String.utf8Len_toList, h.text_eq, String.utf8Len_append (done ++ opened), h.pos_eq]
  rw [hlen, Nat.lt_add_right_iff_pos, Nat.pos_iff_ne_zero, Ne, String.utf8Len_eq_zero]

/-- Where the text has been read to its end, the rest is written. -/
theorem finish?_eq (h : c.IsAt policy text keyword replacement done opened []) :
    c.finish? text = some (replaceWordCounted policy text keyword replacement) := by
  have htext : text.toList = done ++ opened := by simpa using h.text_eq
  rw [finish?, h.settled_eq, slice?_behind htext, replaceWordCounted, h.result_eq]
  simp [String.ofList_append]

/-- Where the keyword is found, a step replaces it. -/
theorem step?_of_matchesAt (hne : keyword ≠ "") {after : List Char}
    (h : c.IsAt policy text keyword replacement done opened (keyword.toList ++ after))
    (hm : (ofKeyword policy keyword.toList replacement.toList).matchesAt
      ((done ++ opened).foldl (Context.extend policy) .start) (keyword.toList ++ after) = true) :
    c.step? policy text keyword replacement =
        some (c.replace keyword replacement (String.ofList opened)) ∧
      (c.replace keyword replacement (String.ofList opened)).IsAt policy text keyword replacement
        (done ++ opened ++ keyword.toList) [] after := by
  have htarget : keyword.toList ≠ [] := fun hnil => hne (String.toList_eq_nil_iff.mp hnil)
  have hrest : keyword.toList ++ after ≠ [] := List.append_ne_nil_of_left_ne_nil htarget after
  have hchosen := chosenAt?_eq policy replacement hne hrest h.text_eq
  have hend : c.pos + keyword.utf8ByteSize =
      String.utf8Len (done ++ opened ++ keyword.toList) := by
    rw [String.utf8Len_append (done ++ opened), String.utf8Len_toList, h.pos_eq]
  constructor
  · rw [step?, h.pos_eq, h.settled_eq, slice?_behind h.text_eq, Option.bind_eq_bind,
      Option.bind_some, hchosen, hm, slice?_eq_some h.text_eq]
    rfl
  · refine ⟨by simp [h.text_eq], hend, by rw [List.append_nil]; exact hend, ?_⟩
    rw [h.result_eq, Substitution.walk_of_matchesAt (target_ofKeyword _ _ _) htarget hm]
    simp [replace, ofKeyword]
    omega

/-- Where the keyword is not found, a step passes over one character. -/
theorem step?_of_not_matchesAt (hne : keyword ≠ "") {d : Char} {ds : List Char}
    (h : c.IsAt policy text keyword replacement done opened (d :: ds))
    (hm : (ofKeyword policy keyword.toList replacement.toList).matchesAt
      ((done ++ opened).foldl (Context.extend policy) .start) (d :: ds) = false) :
    c.step? policy text keyword replacement = some (c.pass d) ∧
      (c.pass d).IsAt policy text keyword replacement done (opened ++ [d]) ds := by
  have hchosen := chosenAt?_eq policy replacement hne (List.cons_ne_nil d ds) h.text_eq
  constructor
  · rw [step?, h.pos_eq, slice?_behind h.text_eq, Option.bind_eq_bind, Option.bind_some, hchosen,
      hm]
    simp
  · refine ⟨by simp [h.text_eq], h.settled_eq, ?_, ?_⟩
    · rw [pass, h.pos_eq, ← List.append_assoc, String.utf8Len_append (done ++ opened)]
      simp
    · rw [h.result_eq, Substitution.walk_cons_of_not_matchesAt hm]
      simp [pass, ofKeyword]

/-- Before the end a step leads on to a cursor that has come to stand in the text too. What it
passes over has no boundary within, unless it has replaced the keyword. -/
theorem exists_step? (h : c.IsAt policy text keyword replacement done opened rest)
    (hne : keyword ≠ "") (hlt : c.pos < text.utf8ByteSize) :
    ∃ next, c.step? policy text keyword replacement = some next ∧ c.pos < next.pos ∧
      (∃ done' opened' rest',
        next.IsAt policy text keyword replacement done' opened' rest') ∧
      ∀ q, IsBoundary text q → c.pos < q → q < next.pos → next.count = c.count + 1 := by
  cases rest with
  | nil => exact absurd rfl (h.pos_lt_iff.mp hlt)
  | cons d ds =>
      cases hm : (ofKeyword policy keyword.toList replacement.toList).matchesAt
          ((done ++ opened).foldl (Context.extend policy) .start) (d :: ds) with
      | true =>
          obtain ⟨after, hafter⟩ := Substitution.exists_eq_append_of_matchesAt hm
          rw [target_ofKeyword] at hafter
          rw [hafter] at h hm
          obtain ⟨hstep, hnext⟩ := h.step?_of_matchesAt hne hm
          have hwidth : keyword.utf8ByteSize ≠ 0 := fun hzero =>
            hne (String.utf8ByteSize_eq_zero_iff.mp hzero)
          exact ⟨_, hstep, Nat.lt_add_of_pos_right (Nat.pos_of_ne_zero hwidth),
            ⟨_, _, _, hnext⟩, fun _ _ _ _ => rfl⟩
      | false =>
          obtain ⟨hstep, hnext⟩ := h.step?_of_not_matchesAt hne hm
          refine ⟨_, hstep, Nat.lt_add_of_pos_right d.utf8Size_pos, ⟨_, _, _, hnext⟩, ?_⟩
          intro q hq hlo hhi
          -- such a boundary would cut the character
          obtain ⟨before, after, htext, rfl⟩ := isBoundary_iff.mp hq
          rw [h.pos_eq] at hlo
          have hcut := utf8Len_add_utf8Size_le (h.text_eq.symm.trans htext) hlo
          rw [pass, h.pos_eq] at hhi
          exact absurd hcut (Nat.not_le.mpr hhi)

/-- From wherever the cursor has come to stand it goes on to the result. -/
theorem run?_eq (h : c.IsAt policy text keyword replacement done opened rest)
    (hne : keyword ≠ "") :
    c.run? policy text keyword replacement =
      some (replaceWordCounted policy text keyword replacement) := by
  induction hgap : text.utf8ByteSize - c.pos using Nat.strong_induction_on
    generalizing c done opened rest with
  | h gap ih =>
      rw [run?]
      by_cases hlt : c.pos < text.utf8ByteSize
      · obtain ⟨next, hstep, hgoes, ⟨done', opened', rest', hnext⟩, -⟩ := h.exists_step? hne hlt
        rw [if_pos hlt, hstep, Option.bind_some, if_pos hgoes]
        exact ih (text.utf8ByteSize - next.pos) (by omega) hnext rfl
      · have hnil : rest = [] := by
          rwa [h.pos_lt_iff, not_not] at hlt
        rw [if_neg hlt]
        exact (hnil ▸ h).finish?_eq

end Cursor.IsAt

/-- The cursors of a replacement, one before each turn of its loop and one behind the last. -/
inductive Visits (policy : QuotePolicy) (text keyword replacement : String) : Cursor → Prop
  | start : Visits policy text keyword replacement .start
  | step {c next : Cursor} : Visits policy text keyword replacement c →
      c.pos < text.utf8ByteSize → c.step? policy text keyword replacement = some next →
      Visits policy text keyword replacement next

/-- A cursor stands at boundaries, and none of the slices that are taken at it fails. -/
structure Cursor.IsSafe (text keyword : String) (c : Cursor) : Prop where
  settled_le_pos : c.settled ≤ c.pos
  pos_le : c.pos ≤ text.utf8ByteSize
  isBoundary_settled : IsBoundary text c.settled
  isBoundary_pos : IsBoundary text c.pos
  isSome_rest : (slice? text c.pos text.utf8ByteSize).isSome
  isSome_kept : (slice? text c.settled c.pos).isSome
  isSome_before : (slice? text 0 c.pos).isSome
  isSome_after : OccursAt text keyword c.pos →
    (slice? text (c.pos + keyword.utf8ByteSize) text.utf8ByteSize).isSome
  isSome_tail : (slice? text c.settled text.utf8ByteSize).isSome

theorem Cursor.IsAt.isSafe (h : c.IsAt policy text keyword replacement done opened rest)
    (hne : keyword ≠ "") : c.IsSafe text keyword := by
  have hle : c.settled ≤ c.pos := by
    rw [h.settled_eq, h.pos_eq, String.utf8Len_append]
    exact Nat.le_add_right _ _
  have hsettled : IsBoundary text c.settled :=
    h.settled_eq ▸ isBoundary_utf8Len (h.text_eq.trans (List.append_assoc _ _ _))
  have hpos : IsBoundary text c.pos := h.pos_eq ▸ isBoundary_utf8Len h.text_eq
  have hend := isBoundary_utf8ByteSize text
  exact {
    settled_le_pos := hle
    pos_le := hpos.le
    isBoundary_settled := hsettled
    isBoundary_pos := hpos
    isSome_rest := isSome_slice? hpos.le hpos hend
    isSome_kept := isSome_slice? hle hsettled hpos
    isSome_before := isSome_slice? (Nat.zero_le _) (isBoundary_zero text) hpos
    isSome_after := fun hoccurs =>
      isSome_slice? (hoccurs.add_le hne) (hoccurs.isBoundary hne).2 hend
    isSome_tail := isSome_slice? hsettled.le hsettled hend }

theorem Cursor.isAt_start (policy : QuotePolicy) (text keyword replacement : String)
    (hne : keyword ≠ "") :
    Cursor.start.IsAt policy text keyword replacement [] [] text.toList := by
  have htarget : keyword.toList ≠ [] := fun hnil => hne (String.toList_eq_nil_iff.mp hnil)
  refine ⟨rfl, rfl, rfl, ?_⟩
  rw [rewrite, Substitution.apply_of_target_ne_nil htarget]
  simp [start]

/-- Every cursor of a replacement has come to stand in the text. -/
theorem Visits.exists_isAt (h : Visits policy text keyword replacement c) (hne : keyword ≠ "") :
    ∃ done opened rest, c.IsAt policy text keyword replacement done opened rest := by
  induction h with
  | start => exact ⟨[], [], text.toList, Cursor.isAt_start policy text keyword replacement hne⟩
  | step _ hlt hstep ih =>
      obtain ⟨done, opened, rest, hat⟩ := ih
      obtain ⟨next', hstep', -, hnext, -⟩ := hat.exists_step? hne hlt
      rwa [Option.some.inj (hstep.symm.trans hstep')]

/-- The cursor comes to every boundary, but for those within keywords that it replaces. -/
theorem Visits.exists_of_isBoundary (h : Visits policy text keyword replacement c)
    (hne : keyword ≠ "") {q : Nat} (hq : IsBoundary text q) (hle : c.pos ≤ q) :
    (∃ c, Visits policy text keyword replacement c ∧ c.pos = q) ∨
      ∃ c next, Visits policy text keyword replacement c ∧
        c.step? policy text keyword replacement = some next ∧ c.pos < q ∧ q < next.pos ∧
        next.count = c.count + 1 := by
  induction hgap : q - c.pos using Nat.strong_induction_on generalizing c with
  | h gap ih =>
      rcases Nat.eq_or_lt_of_le hle with heq | hlt
      · exact .inl ⟨c, h, heq⟩
      · have hmore : c.pos < text.utf8ByteSize := Nat.lt_of_lt_of_le hlt hq.le
        obtain ⟨done, opened, rest, hat⟩ := h.exists_isAt hne
        obtain ⟨next, hstep, hgoes, -, hover⟩ := hat.exists_step? hne hmore
        by_cases hnext : next.pos ≤ q
        · exact ih (q - next.pos) (by omega) (h.step hmore hstep) hnext rfl
        · have hpast : q < next.pos := Nat.not_le.mp hnext
          exact .inr ⟨c, next, h, hstep, hlt, hpast, hover q hq hlt hpast⟩

/-- A replacement by offsets comes to its end and gives what the replacement gives. Before each turn
of the loop the cursor stands at boundaries within the text, none of the slices that are taken there
fails, and the turn moves it on. Wherever the bytes of the keyword occur in the text there is a
boundary, and the cursor comes to it, unless it lies within a keyword that is replaced. -/
theorem run_by_offsets (policy : QuotePolicy) (text replacement : String) {keyword : String}
    (hne : keyword ≠ "") :
    (∀ c, Visits policy text keyword replacement c → c.IsSafe text keyword ∧
      (c.pos < text.utf8ByteSize → ∃ next,
        c.step? policy text keyword replacement = some next ∧ c.pos < next.pos)) ∧
    Cursor.start.run? policy text keyword replacement =
      some (replaceWordCounted policy text keyword replacement) ∧
    ∀ q, OccursAt text keyword q → IsBoundary text q ∧
      ((∃ c, Visits policy text keyword replacement c ∧ c.pos = q) ∨
        ∃ c next, Visits policy text keyword replacement c ∧
          c.step? policy text keyword replacement = some next ∧ c.pos < q ∧ q < next.pos ∧
          next.count = c.count + 1) := by
  refine ⟨?_, ?_, ?_⟩
  · intro c hvisits
    obtain ⟨done, opened, rest, hat⟩ := hvisits.exists_isAt hne
    refine ⟨hat.isSafe hne, fun hlt => ?_⟩
    obtain ⟨next, hstep, hgoes, -⟩ := hat.exists_step? hne hlt
    exact ⟨next, hstep, hgoes⟩
  · exact (Cursor.isAt_start policy text keyword replacement hne).run?_eq hne
  · intro q hoccurs
    have hq := (hoccurs.isBoundary hne).1
    exact ⟨hq, Visits.start.exists_of_isBoundary hne hq (Nat.zero_le q)⟩

/-- A keyword of two bytes is replaced between letters and passed over behind a blank, with a
character of three bytes before both. -/
theorem run_by_offsets_multibyte :
    "é" ≠ "" ∧
    (Visits .escapeAware "→ xéx é" "é" "-" .start ∧ 0 < "→ xéx é".utf8ByteSize ∧
      ∃ next, Cursor.start.step? .escapeAware "→ xéx é" "é" "-" = some next ∧ 0 < next.pos) ∧
    Cursor.start.run? .escapeAware "→ xéx é" "é" "-" = some ("→ x-x é", 1) ∧
    OccursAt "→ xéx é" "é" 9 ∧ IsBoundary "→ xéx é" 9 := by
  have hne : "é" ≠ "" := by decide
  have hlt : 0 < "→ xéx é".utf8ByteSize := by decide
  have hoccurs : OccursAt "→ xéx é" "é" 9 :=
    (occursAt_iff hne).mpr ⟨"→ xéx ".toList, [], rfl, rfl⟩
  have hresult : replaceWordCounted .escapeAware "→ xéx é" "é" "-" = ("→ x-x é", 1) := by decide
  obtain ⟨hsafe, hrun, hall⟩ := run_by_offsets .escapeAware "→ xéx é" "-" hne
  rw [hresult] at hrun
  exact ⟨hne, ⟨.start, hlt, (hsafe .start .start).2 hlt⟩, hrun, hoccurs, (hall 9 hoccurs).1⟩

end Transcription.Replacement
