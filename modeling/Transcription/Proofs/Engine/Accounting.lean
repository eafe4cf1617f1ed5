import Transcription.Proofs.Engine.Change
import Transcription.Proofs.Engine.Hits
import Transcription.Proofs.Text.Choice
import Transcription.Proofs.Text.Runs
import Mathlib.Data.Set.Card

/-!
# What the numbers of a report count

The hits of a report were counted while the text was being rewritten, but they can be read off the
source: the keyword of each rule stands there, as a maximal run that begins outside literals, as
often as the report says. The placeholders are counted in the text that the rules leave; they are
the annotated placeholders of the symbol that are met from left to right without overlap.
-/

namespace Transcription

open Text Literal

variable {policy : QuotePolicy} {text w : String}

/-! ### The runs of a keyword -/

/-- The offsets at which a word stands as a maximal run that begins outside literals. -/
def freeRuns (policy : QuotePolicy) (text w : String) : Set Nat :=
  {q | IsRunAt text.toList w.toList q ∧ isProtected (scan policy text) q = false}

/-- The offsets of the pieces of a text that are a word and unprotected. -/
def freeOffsets (policy : QuotePolicy) (text w : String) : List Nat :=
  ((located 0 (pieces text.toList)).filter fun p =>
    decide (p.2 = .word w.toList) && !isProtected (scan policy text) p.1).map Prod.fst

theorem mem_freeOffsets_iff {q : Nat} :
    q ∈ freeOffsets policy text w ↔ q ∈ freeRuns policy text w := by
  have hrun : (q, Piece.word w.toList) ∈ located 0 (pieces text.toList) ↔
      IsRunAt text.toList w.toList q := by
    rw [mem_located_pieces_iff]
    simp
  rw [freeRuns, Set.mem_ofPred_eq, ← hrun, freeOffsets, List.mem_map]
  constructor
  · rintro ⟨⟨q, p⟩, hmem, rfl⟩
    obtain ⟨hloc, hkept⟩ := List.mem_filter.mp hmem
    simp only [Bool.and_eq_true, decide_eq_true_eq, Bool.not_eq_true'] at hkept
    exact ⟨hkept.1 ▸ hloc, hkept.2⟩
  · rintro ⟨hloc, hfree⟩
    exact ⟨_, List.mem_filter.mpr ⟨hloc, by simp [hfree]⟩, rfl⟩

theorem nodup_freeOffsets (policy : QuotePolicy) (text w : String) :
    (freeOffsets policy text w).Nodup := by
  have hlocated := pairwise_lt_located 0 (chars_ne_nil_of_mem_pieces text.toList)
  rw [freeOffsets, List.Nodup, List.pairwise_map]
  exact (hlocated.filter _).imp fun hlt => Nat.ne_of_lt hlt

/-- There is an offset for each free word that is equal to the word. -/
theorem length_freeOffsets (policy : QuotePolicy) (text w : String) :
    (freeOffsets policy text w).length = (freeWords policy text).count w := by
  rw [freeOffsets, List.length_map, ← List.countP_eq_length_filter, freeWords, markedPieces,
    List.count_eq_countP, List.countP_map, List.countP_filterMap, List.countP_map]
  refine List.countP_congr fun p _ => ?_
  obtain ⟨q, piece⟩ := p
  cases piece with
  | other c => simp [freeWord?]
  | word v =>
      have hv : v = w.toList ↔ String.ofList v = w := by
        rw [← String.toList_inj, String.toList_ofList]
      cases hprotected : isProtected (scan policy text) q with
      | true => simp [freeWord?, hprotected]
      | false => simp [freeWord?, hprotected, hv]

/-- A text has finitely many runs of a word outside literals, and they are its free words that are
equal to the word. -/
theorem ncard_freeRuns (policy : QuotePolicy) (text w : String) :
    (freeRuns policy text w).Finite ∧
      (freeRuns policy text w).ncard = (freeWords policy text).count w := by
  have hset : freeRuns policy text w = ((freeOffsets policy text w).toFinset : Set Nat) := by
    ext q
    rw [List.coe_toFinset, Set.mem_ofPred_eq, mem_freeOffsets_iff]
  refine ⟨hset ▸ Finset.finite_toSet _, ?_⟩
  rw [hset, Set.ncard_coe_finset, List.toFinset_card_of_nodup (nodup_freeOffsets policy text w),
    length_freeOffsets]

/-- The hits of rules on a text are those of the rules whose keyword stands in it. -/
theorem filterMap_hit?_eq (rules : List Rule) (text : String) :
    (rules.filterMap fun r => r.hit? policy text) =
      (rules.filter fun r => 0 < (freeWords policy text).count r.keyword).map fun r =>
        ⟨r.keyword, r.replacement, (freeWords policy text).count r.keyword⟩ := by
  induction rules with
  | nil => rfl
  | cons r rules ih =>
      rw [List.filterMap_cons, ih, Rule.hit?]
      by_cases hzero : (freeWords policy text).count r.keyword = 0
      · rw [List.filter_cons_of_neg (by simp [hzero])]
        simp only [hzero, if_true]
      · have hpos := Nat.pos_of_ne_zero hzero
        rw [List.filter_cons_of_pos (by exact decide_eq_true hpos), List.map_cons]
        simp only [hzero, if_false]

/-! ### The places of a symbol -/

namespace Placement

/-- The annotated placeholder of a symbol stands in a text, behind so many characters. -/
def StandsAt (symbol : String) (text : List Char) (q : Nat) : Prop :=
  (annotated symbol).toList <+: text.drop q

theorem stands_ofPattern_iff (symbol : String) (text : List Char) (q : Nat) :
    (ofPattern (annotated symbol).toList).Stands () text q ↔ StandsAt symbol text q :=
  matchesAt_ofPattern_iff

/-- The places at which placeholders are met from left to right without overlap, and how many of
them a placement counts. -/
theorem exists_choice_rewrite (symbol : String) (text : List Char) :
    ∃ places, IsLeftmostChoice (StandsAt symbol text) (annotated symbol).toList.length places ∧
      (rewrite symbol text).count = if isBlankString symbol then 0 else places.length := by
  have hne : (ofPattern (annotated symbol).toList).target ≠ [] := by
    rw [target_ofPattern]
    exact annotated_ne_nil symbol
  obtain ⟨places, hplaces, hcount⟩ := Substitution.exists_choice_walk hne () text
  have hstands : (ofPattern (annotated symbol).toList).Stands () text = StandsAt symbol text :=
    funext fun q => propext (stands_ofPattern_iff symbol text q)
  rw [hstands, target_ofPattern] at hplaces
  refine ⟨places, hplaces, ?_⟩
  rw [rewrite]
  by_cases hblank : isBlankString symbol = true
  · rw [if_pos hblank, if_pos hblank]
  · rw [if_neg hblank, if_neg hblank, Substitution.apply_of_target_ne_nil hne, hcount]

end Placement

theorem replaceInOrder_empty (policy : QuotePolicy) (rules : List Rule) :
    replaceInOrder policy rules "" = "" := by
  have hkept : ∀ r : Rule, replaceWord policy "" r.keyword r.replacement = "" := fun r => by
    rw [← String.toList_inj, toList_replaceWord, String.toList_empty, Replacement.rewrite_nil_text]
  induction rules with
  | nil => rfl
  | cons r rules ih => rw [replaceInOrder_cons, hkept, ih]

/-- A report counts placeholders in the text that the rules leave. -/
theorem currencyPlaceholders_transcribeDetailed (policy : QuotePolicy) (code currency : String) :
    (transcribeDetailed policy code currency).currencyPlaceholders =
      (Placement.rewrite currency (replaceInOrder policy rulebook code).toList).count := by
  by_cases hempty : code = ""
  · subst hempty
    rw [replaceInOrder_empty, String.toList_empty, Placement.rewrite]
    by_cases hblank : isBlankString currency = true
    · rw [if_pos hblank]
      rfl
    · rw [if_neg hblank, Substitution.apply_nil]
      rfl
  · rw [transcribeDetailed_of_ne_empty hempty, replaceInOrder, ← Engine.text_applyRules]
    rfl

/-! ### The size of the numbers -/

/-- A word of a text stands in it no more often than the text has bytes. -/
theorem count_freeWords_le (hw : isWord w.toList = true) (policy : QuotePolicy) (text : String) :
    (freeWords policy text).count w ≤ text.utf8ByteSize := by
  have hplaces := Substitution.count_mul_le
    (s := Replacement.ofKeyword policy w.toList w.toList) isMeasure_length .start text.toList
  have hcount : ((Replacement.ofKeyword policy w.toList w.toList).apply .start text.toList).count =
      (freeWords policy text).count w := by
    rw [count_freeWords]
    exact congrArg Rewritten.count (Replacement.rewrite_of_isWord hw policy w.toList text.toList)
  have hbytes := length_le_utf8Len text.toList
  have hword : 0 < w.toList.length := List.length_pos_iff.mpr (ne_nil_of_isWord hw)
  rw [hcount, Replacement.target_ofKeyword] at hplaces
  rw [String.utf8Len_toList] at hbytes
  calc (freeWords policy text).count w
      ≤ (freeWords policy text).count w * w.toList.length := Nat.le_mul_of_pos_right _ hword
    _ ≤ text.toList.length := hplaces
    _ ≤ text.utf8ByteSize := hbytes

/-- The hits of a report come from rules of the book, in its order, and each of them counts
something. -/
theorem applied_transcribeDetailed_sublist (policy : QuotePolicy) (code currency : String) :
    let applied := (transcribeDetailed policy code currency).applied
    (applied.map RuleHit.keyword).Sublist (rulebook.map Rule.keyword) ∧
      ∀ hit ∈ applied, 0 < hit.count ∧ hit.count ≤ code.utf8ByteSize := by
  intro applied
  have happlied : applied = _ :=
    (applied_transcribeDetailed policy code currency).trans (filterMap_hit?_eq rulebook code)
  rw [happlied]
  refine ⟨?_, fun hit hmem => ?_⟩
  · rw [List.map_map]
    exact List.filter_sublist.map _
  · obtain ⟨r, hr, rfl⟩ := List.mem_map.mp hmem
    obtain ⟨hbook, hpos⟩ := List.mem_filter.mp hr
    have hword := Rule.isWord_keyword (Rulebook.isPlain_of_mem r hbook)
    exact ⟨of_decide_eq_true hpos, count_freeWords_le hword policy code⟩

/-- A report counts no more than two placeholders for each byte of the source. -/
theorem currencyPlaceholders_le (policy : QuotePolicy) (code currency : String) :
    (transcribeDetailed policy code currency).currencyPlaceholders ≤ 2 * code.utf8ByteSize := by
  rw [currencyPlaceholders_transcribeDetailed, Placement.rewrite]
  by_cases hblank : isBlankString currency = true
  · rw [if_pos hblank]
    exact Nat.zero_le _
  · rw [if_neg hblank]
    have hplaces := Substitution.count_mul_le
      (s := Placement.ofPattern (Placement.annotated currency).toList) isMeasure_bulk ()
      (replaceInOrder policy rulebook code).toList
    -- every placeholder weighs something, and the rules make nothing heavier
    have hsymbol := Placement.bulk_canonical_le currency
    have hpos : 0 < bulk Placement.canonical.toList := by decide
    have hrules := Engine.bulk_applyRules_le policy Rulebook.isLightening_of_mem code
    have hcode := weigh_le bookWeight_le code.toList
    have hbytes := length_le_utf8Len code.toList
    rw [Engine.text_applyRules] at hrules
    rw [Placement.target_ofPattern] at hplaces
    rw [String.utf8Len_toList] at hbytes
    refine (Nat.le_mul_of_pos_right _ (Nat.lt_of_lt_of_le hpos hsymbol)).trans (hplaces.trans ?_)
    exact hrules.trans (hcode.trans (Nat.mul_le_mul_left 2 hbytes))

/-- A report accounts for its source. The applied rules are those whose keyword stands in the source
as a maximal run that begins outside literals, in the order of the book, each with the number of
such runs; what one rule writes is no hit of another. The placeholders are those of the symbol in
the text that the rules leave, chosen from the left without overlap; a blank symbol has none. -/
theorem report_accounts_for_source (policy : QuotePolicy) (code currency : String) :
    let report := transcribeDetailed policy code currency
    let runs := fun w => (freeRuns policy code w).ncard
    (∀ w, (freeRuns policy code w).Finite) ∧
    report.applied = (rulebook.filter fun r => 0 < runs r.keyword).map (fun r =>
      ⟨r.keyword, r.replacement, runs r.keyword⟩) ∧
    ∃ places : List Nat,
      (∀ others, IsLeftmostChoice
          (Placement.StandsAt currency (replaceInOrder policy rulebook code).toList)
          (Placement.annotated currency).toList.length others ↔ others = places) ∧
      report.currencyPlaceholders = if isBlankString currency then 0 else places.length := by
  intro report runs
  have hruns : ∀ w, runs w = (freeWords policy code).count w := fun w =>
    (ncard_freeRuns policy code w).2
  refine ⟨fun w => (ncard_freeRuns policy code w).1, ?_, ?_⟩
  · simp only [hruns]
    exact (applied_transcribeDetailed policy code currency).trans (filterMap_hit?_eq rulebook code)
  · obtain ⟨places, hplaces, hcount⟩ :=
      Placement.exists_choice_rewrite currency (replaceInOrder policy rulebook code).toList
    have hwidth := List.length_pos_iff.mpr (Placement.annotated_ne_nil currency)
    refine ⟨places, fun others => ⟨fun hothers => hothers.unique hplaces hwidth, ?_⟩, ?_⟩
    · rintro rfl
      exact hplaces
    · exact (currencyPlaceholders_transcribeDetailed policy code currency).trans hcount

end Transcription
