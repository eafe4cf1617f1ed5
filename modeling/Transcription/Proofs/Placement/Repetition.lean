import Transcription.Proofs.Engine.Change
import Transcription.Proofs.Placement
import Transcription.Proofs.Placement.Side

/-!
# Placing a currency twice

The canonical placeholder begins with a dollar sign, so what a placement writes without one was
copied from the text. It ends in the marker, and so a placeholder of a symbol on the right can begin
in it: this happens where the symbol of a rewritten placeholder is followed by the symbol once more.
A placeholder of a symbol on the left would have to end in it, behind the dollar sign, and that does
not happen as long as the symbol has no character in common with the canonical placeholder.
-/

namespace Transcription

open Text

namespace Text

variable {c : Char} {u w rest : List Char}

/-- A text is not looked for where its first character does not occur. -/
theorem cons_infix_append_iff (hc : c ∉ u) : c :: w <:+: u ++ rest ↔ c :: w <:+: rest := by
  induction u with
  | nil => rfl
  | cons d ds ih =>
      have hne : c ≠ d := List.ne_of_not_mem_cons hc
      rw [List.cons_append, List.infix_cons_iff, List.cons_prefix_cons,
        ih (List.not_mem_of_not_mem_cons hc)]
      exact or_iff_right fun h => hne h.1

end Text

namespace Placement

variable {pattern u : List Char} {c : Char}

/-- What a placement writes without a dollar sign is copied. -/
theorem isPrefix_of_isPrefix_placed (hne : pattern ≠ []) (hu : '$' ∉ u) {text : List Char}
    (h : u <+: placed pattern text) : u <+: text := by
  induction text using placed_induction hne generalizing u with
  | nil => rwa [placed_nil] at h
  | replace rest ih =>
      rw [placed_pattern_append hne, toList_canonical, List.cons_append, List.prefix_cons_iff] at h
      rcases h with rfl | ⟨v, rfl, -⟩
      · exact List.nil_prefix
      · exact absurd List.mem_cons_self hu
  | copy d cs hnot ih =>
      rw [placed_cons_of_no_match hnot, List.prefix_cons_iff] at h
      rcases h with rfl | ⟨v, rfl, hv⟩
      · exact List.nil_prefix
      · exact List.cons_prefix_cons.mpr ⟨rfl, ih (List.not_mem_of_not_mem_cons hu) hv⟩

/-- A beginning of a text in which no pattern begins is copied. -/
theorem placed_append_of_not_mem (hu : c ∉ u) (w rest : List Char) :
    placed (c :: w) (u ++ rest) = u ++ placed (c :: w) rest := by
  induction u with
  | nil => rfl
  | cons d ds ih =>
      have hne : c ≠ d := List.ne_of_not_mem_cons hu
      have hnot : ¬ c :: w <+: d :: (ds ++ rest) := fun h => hne (List.cons_prefix_cons.mp h).1
      rw [List.cons_append, placed_cons_of_no_match hnot, ih (List.not_mem_of_not_mem_cons hu),
        List.cons_append]

/-- A placement keeps the beginning of a text where it has neither a dollar sign nor the first
character of the pattern, and it writes no such beginning. -/
theorem isPrefix_placed_iff {w : List Char} (hdollar : '$' ∉ u) (hu : c ∉ u) {text : List Char} :
    u <+: placed (c :: w) text ↔ u <+: text := by
  refine ⟨isPrefix_of_isPrefix_placed (List.cons_ne_nil c w) hdollar, ?_⟩
  rintro ⟨later, rfl⟩
  rw [placed_append_of_not_mem hu]
  exact List.prefix_append u _

/-- Where a character was copied because no pattern stands there, none stands there afterwards. -/
theorem not_isPrefix_cons_placed {cs : List Char} (hdollar : '$' ∉ pattern)
    (hnot : ¬ pattern <+: c :: cs) : ¬ pattern <+: c :: placed pattern cs := by
  intro h
  rcases List.prefix_cons_iff.mp h with rfl | ⟨w, rfl, hw⟩
  · exact hnot List.nil_prefix
  · have hcopied : w <+: cs := isPrefix_of_isPrefix_placed (List.cons_ne_nil c w)
      (List.not_mem_of_not_mem_cons hdollar) hw
    exact hnot (List.cons_prefix_cons.mpr ⟨rfl, hcopied⟩)

/-- No pattern is left over when it begins with a character that no placeholder has and holds no
dollar sign. -/
theorem not_infix_placed {w : List Char} (hc : c ∉ canonical.toList) (hw : '$' ∉ w)
    (text : List Char) : ¬ c :: w <:+: placed (c :: w) text := by
  have hdollar : '$' ∉ c :: w := by
    rintro (_ | ⟨_, hmem⟩)
    · exact hc (by decide)
    · exact hw hmem
  induction text using placed_induction (List.cons_ne_nil c w) with
  | nil => simp
  | replace rest ih =>
      rwa [placed_pattern_append (List.cons_ne_nil c w), cons_infix_append_iff hc]
  | copy d cs hnot ih =>
      rw [placed_cons_of_no_match hnot, List.infix_cons_iff, not_or]
      exact ⟨not_isPrefix_cons_placed hdollar hnot, ih⟩

/-- What begins with the marker is found at a marker or behind it. -/
theorem marker_append_infix_iff (u rest : List Char) :
    marker.toList ++ u <:+: marker.toList ++ rest ↔ u <+: rest ∨ marker.toList ++ u <:+: rest := by
  have hclose : '\x7b' ∉ ['\x7d'] := by decide
  have hlater : '\x7b' :: '\x7d' :: u <:+: '\x7d' :: rest ↔ '\x7b' :: '\x7d' :: u <:+: rest :=
    cons_infix_append_iff hclose
  show '\x7b' :: '\x7d' :: u <:+: '\x7b' :: '\x7d' :: rest ↔
    u <+: rest ∨ '\x7b' :: '\x7d' :: u <:+: rest
  rw [List.infix_cons_iff, hlater, List.cons_prefix_cons, List.cons_prefix_cons]
  simp

/-- A symbol behind the marker is left over just where it stood twice behind the marker. -/
theorem infix_placed_iff {symbol : List Char} (h : ∀ c ∈ symbol, c ∉ canonical.toList)
    (text : List Char) :
    marker.toList ++ symbol <:+: placed (marker.toList ++ symbol) text ↔
      marker.toList ++ (symbol ++ symbol) <:+: text := by
  have hdollar : '$' ∉ symbol := fun hmem => h _ hmem (by decide)
  have hopen : '\x7b' ∉ symbol := fun hmem => h _ hmem (by decide)
  have hpattern : '$' ∉ marker.toList ++ symbol := List.not_mem_append (by decide) hdollar
  have hne : marker.toList ++ symbol ≠ [] := by simp [toList_marker]
  induction text using placed_induction hne with
  | nil => simp [toList_marker]
  | replace rest ih =>
      -- behind the placeholder that is written the symbol stands where it stood in the text
      have hsymbol : symbol <+: placed (marker.toList ++ symbol) rest ↔ symbol <+: rest :=
        isPrefix_placed_iff hdollar hopen
      have hwritten : canonical.toList ++ placed (marker.toList ++ symbol) rest =
          ['$'] ++ (marker.toList ++ placed (marker.toList ++ symbol) rest) := rfl
      have hcopied : marker.toList ++ (symbol ++ symbol) <:+: symbol ++ rest ↔
          marker.toList ++ (symbol ++ symbol) <:+: rest := cons_infix_append_iff hopen
      have hbegin : '\x7b' ∉ ['$'] := by decide
      rw [placed_pattern_append hne, hwritten]
      calc marker.toList ++ symbol <:+:
            ['$'] ++ (marker.toList ++ placed (marker.toList ++ symbol) rest)
        _ ↔ marker.toList ++ symbol <:+: marker.toList ++ placed (marker.toList ++ symbol) rest :=
            cons_infix_append_iff hbegin
        _ ↔ symbol <+: rest ∨
              marker.toList ++ symbol <:+: placed (marker.toList ++ symbol) rest := by
            rw [marker_append_infix_iff, hsymbol]
        _ ↔ symbol <+: rest ∨ marker.toList ++ (symbol ++ symbol) <:+: rest := or_congr_right ih
        _ ↔ marker.toList ++ (symbol ++ symbol) <:+: marker.toList ++ symbol ++ rest := by
            rw [List.append_assoc, marker_append_infix_iff, List.prefix_append_right_inj, hcopied]
  | copy d cs hnot ih =>
      have hlonger : ¬ marker.toList ++ (symbol ++ symbol) <+: d :: cs := by
        intro hlong
        rw [← List.append_assoc] at hlong
        exact hnot ((List.prefix_append _ symbol).trans hlong)
      rw [placed_cons_of_no_match hnot, List.infix_cons_iff, List.infix_cons_iff,
        or_iff_right (not_isPrefix_cons_placed hpattern hnot), or_iff_right hlonger]
      exact ih

/-- A placement rewrites something when the pattern stands in the text. -/
theorem count_walk_eq_zero_iff (hne : pattern ≠ []) (text : List Char) :
    ((ofPattern pattern).walk () 0 text).count = 0 ↔ ¬ pattern <:+: text := by
  induction (), text using Substitution.walk_induction (s := ofPattern pattern) hne with
  | nil _ => simp [hne]
  | replace _ rest hm ih =>
      have hfound : pattern <:+: pattern ++ rest := List.infix_append_left
      rw [Substitution.walk_of_matchesAt rfl hne hm, Rewritten.count_replace]
      exact iff_of_false (Nat.succ_ne_zero _) (not_not_intro hfound)
  | copy _ d cs hm ih =>
      have hnot : ¬ pattern <+: d :: cs := by
        rw [← matchesAt_ofPattern_iff, hm]
        exact Bool.false_ne_true
      rw [Substitution.walk_cons_of_not_matchesAt hm, Rewritten.count_copy, List.infix_cons_iff,
        or_iff_right hnot]
      exact ih

/-- A placement finds nothing in a text just when the annotated placeholder does not stand there. -/
theorem count_placeCurrencyCounted_eq_zero_iff {symbol : String}
    (hblank : isBlankString symbol = false) (text : String) :
    (placeCurrencyCounted text symbol).2 = 0 ↔
      ¬ (annotated symbol).toList <:+: text.toList := by
  have htarget : (ofPattern (annotated symbol).toList).target ≠ [] := by
    rw [target_ofPattern]
    exact annotated_ne_nil symbol
  show (rewrite symbol text.toList).count = 0 ↔ _
  rw [rewrite, hblank, if_neg Bool.false_ne_true, Substitution.apply_of_target_ne_nil htarget]
  exact count_walk_eq_zero_iff (annotated_ne_nil symbol) text.toList

theorem toList_annotated_of_leftside {symbol : String} (h : ofSymbol symbol = .leftside) :
    (annotated symbol).toList = symbol.toList ++ marker.toList := by
  rw [annotated, h, String.toList_append]

theorem toList_annotated_of_rightside {symbol : String} (h : ofSymbol symbol = .rightside) :
    (annotated symbol).toList = marker.toList ++ symbol.toList := by
  rw [annotated, h, String.toList_append]

/-- No placeholder of a symbol on the left is left over when the symbol has no character of a
placeholder. -/
theorem not_infix_placeCurrency_of_leftside {symbol : String}
    (hblank : isBlankString symbol = false) (hside : ofSymbol symbol = .leftside)
    (h : ∀ c ∈ symbol.toList, c ∉ canonical.toList) (text : String) :
    ¬ (annotated symbol).toList <:+: (placeCurrency text symbol).toList := by
  have hne : symbol.toList ≠ [] := by
    intro hnil
    rw [isBlankString, hnil] at hblank
    exact Bool.noConfusion hblank
  obtain ⟨c, cs, hcs⟩ := List.exists_cons_of_ne_nil hne
  rw [toList_placeCurrency_of_not_blank hblank, toList_annotated_of_leftside hside]
  rw [hcs] at h ⊢
  have hsymbol : '$' ∉ cs := fun hmem => h _ (List.mem_cons_of_mem c hmem) (by decide)
  have hdollar : '$' ∉ cs ++ marker.toList := List.not_mem_append hsymbol (by decide)
  exact not_infix_placed (h c List.mem_cons_self) hdollar text.toList

/-- A placeholder of a symbol on the right is left over just where the symbol stood twice behind the
marker. -/
theorem infix_placeCurrency_iff_of_rightside {symbol : String}
    (hblank : isBlankString symbol = false) (hside : ofSymbol symbol = .rightside) (text : String) :
    (annotated symbol).toList <:+: (placeCurrency text symbol).toList ↔
      (marker ++ symbol ++ symbol).toList <:+: text.toList := by
  rw [toList_placeCurrency_of_not_blank hblank, toList_annotated_of_rightside hside,
    infix_placed_iff (fun c => not_mem_canonical_of_rightside hside), String.toList_append,
    String.toList_append, List.append_assoc]

/-- A currency stands on the right when its symbol is, between blanks, a listed spelling. One on the
left whose symbol has no character of the canonical placeholder is placed once and for all: no
annotated placeholder is left over, so a second placement finds nothing. One on the right is placed
once and for all just when its symbol stands nowhere twice in a row behind the marker. -/
theorem placeCurrency_repeatedly (text : String) {symbol : String}
    (hblank : isBlankString symbol = false) :
    let once := placeCurrency text symbol
    (ofSymbol symbol = .rightside ↔ trim symbol ∈ rightsideSpellings) ∧
    (ofSymbol symbol = .leftside →
      (∀ c ∈ symbol.toList, c ≠ '$' ∧ c ≠ '\x7b' ∧ c ≠ '\x7d') →
        ¬ (annotated symbol).toList <:+: once.toList ∧
        placeCurrencyCounted once symbol = (once, 0)) ∧
    (ofSymbol symbol = .rightside →
      (placeCurrency once symbol = once ↔
        ¬ (marker ++ symbol ++ symbol).toList <:+: text.toList)) := by
  intro once
  refine ⟨ofSymbol_eq_rightside_iff, ?left, ?right⟩
  case left =>
    intro hside hother
    have hmarks : ∀ c ∈ symbol.toList, c ∉ canonical.toList := by
      intro c hc
      simp [toList_canonical, hother c hc]
    have hnone := not_infix_placeCurrency_of_leftside hblank hside hmarks text
    have hcount := (count_placeCurrencyCounted_eq_zero_iff hblank once).mpr hnone
    have hkept : placeCurrency once symbol = once := by
      by_contra hne
      have hpos := ((placeCurrency_ne_iff once symbol).mp hne).1
      omega
    exact ⟨hnone, Prod.ext hkept hcount⟩
  case right =>
    intro hside
    have hdollar : symbol ≠ "$" := by
      rintro rfl
      exact absurd hside (by decide)
    rw [← infix_placeCurrency_iff_of_rightside hblank hside,
      ← count_placeCurrencyCounted_eq_zero_iff hblank, ← not_iff_not, ← Ne, placeCurrency_ne_iff,
      and_iff_left hdollar, Nat.pos_iff_ne_zero]

/-- A yen sign leaves nothing over, even where placeholders stand against each other. A euro sign
with a blank before it does where it stands twice, and does not where the second has no blank. -/
theorem placeCurrency_repeatedly_twice :
    (isBlankString "¥" = false ∧ ofSymbol "¥" = .leftside ∧
      (∀ c ∈ "¥".toList, c ≠ '$' ∧ c ≠ '\x7b' ∧ c ≠ '\x7d') ∧
      placeCurrencyCounted (placeCurrency "¥¥\x7b\x7d¥\x7b\x7d" "¥") "¥" =
        (placeCurrency "¥¥\x7b\x7d¥\x7b\x7d" "¥", 0)) ∧
    (isBlankString " €" = false ∧ ofSymbol " €" = .rightside ∧
      placeCurrency (placeCurrency "\x7b\x7d € €" " €") " €" ≠
        placeCurrency "\x7b\x7d € €" " €" ∧
      placeCurrency (placeCurrency "\x7b\x7d €€" " €") " €" =
        placeCurrency "\x7b\x7d €€" " €") := by
  constructor
  · have hblank : isBlankString "¥" = false := by decide
    have hside : ofSymbol "¥" = .leftside := by decide
    have hother : ∀ c ∈ "¥".toList, c ≠ '$' ∧ c ≠ '\x7b' ∧ c ≠ '\x7d' := by simp
    have honce := (placeCurrency_repeatedly "¥¥\x7b\x7d¥\x7b\x7d" hblank).2.1 hside hother
    exact ⟨hblank, hside, hother, honce.2⟩
  · have hblank : isBlankString " €" = false := by decide
    have hside : ofSymbol " €" = .rightside := by decide
    have htwice : (marker ++ " €" ++ " €").toList <:+: "\x7b\x7d € €".toList :=
      ⟨[], [], by decide⟩
    -- the text has one blank and the symbol written twice has two
    have hmissing : ¬ (marker ++ " €" ++ " €").toList <:+: "\x7b\x7d €€".toList := fun hin =>
      absurd (hin.sublist.count_le ' ') (by decide)
    have hagain := (placeCurrency_repeatedly "\x7b\x7d € €" hblank).2.2 hside
    have honce := (placeCurrency_repeatedly "\x7b\x7d €€" hblank).2.2 hside
    exact ⟨hblank, hside, fun heq => hagain.mp heq htwice, honce.mpr hmissing⟩

-- a symbol that ends in a dollar sign can be left over on the left of what was written
example :
    let once := placeCurrency "RR$\x7b\x7d" "R$"
    placeCurrencyCounted once "R$" = ("$\x7b\x7d", 1) := by
  decide

end Placement

end Transcription
