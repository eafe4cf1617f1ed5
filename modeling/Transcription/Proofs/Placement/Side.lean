import Transcription.Placement
import Mathlib.Data.List.Basic
import Mathlib.Data.List.TakeWhile

/-!
# Symbols on the right of an amount

A symbol stands on the right when it is, without the blanks around it, a spelling of one of the
listed symbols. Each of them has one spelling, except for the Czech crown, whose capital can be the
Kelvin sign and whose caron can be a character of its own. None of these symbols holds a character
that placeholders are made of.
-/

namespace Transcription

namespace Text

/-- Trimming takes nothing away but blanks. -/
theorem isBlank_or_mem_trimList {c : Char} {cs : List Char} (h : c ∈ cs) :
    isBlank c = true ∨ c ∈ trimList cs := by
  have hdrop {ds : List Char} (hd : c ∈ ds) : isBlank c = true ∨ c ∈ ds.dropWhile isBlank := by
    rw [← List.takeWhile_append_dropWhile (p := isBlank) (l := ds), List.mem_append] at hd
    exact hd.imp_left List.mem_takeWhile_imp
  rcases hdrop h with hblank | hrest
  · exact .inl hblank
  · rw [trimList, List.mem_reverse]
    exact hdrop (List.mem_reverse.mpr hrest)

end Text

namespace Placement

open Text

/-- The spellings of a composed character. -/
def spellingsOf (c : Char) : List (List Char) :=
  if c = 'K' then [['K'], ['\u212a']]
  else if c = 'č' then [['č'], ['c', '\u030c']]
  else [[c]]

theorem singleton_mem_spellingsOf (c : Char) : [c] ∈ spellingsOf c := by
  unfold spellingsOf
  split
  · simp_all
  · split <;> simp_all

/-- The spellings of a composed text. -/
def spellings : List Char → List (List Char)
  | [] => [[]]
  | c :: cs => (spellingsOf c).flatMap fun first => (spellings cs).map (first ++ ·)

theorem append_mem_spellings {c : Char} {cs first rest : List Char} (hfirst : first ∈ spellingsOf c)
    (hrest : rest ∈ spellings cs) : first ++ rest ∈ spellings (c :: cs) :=
  List.mem_flatMap.mpr ⟨first, hfirst, List.mem_map_of_mem hrest⟩

/-- A text is a spelling of its composed form. -/
theorem mem_spellings_composed (cs : List Char) : cs ∈ spellings (composed cs) := by
  induction cs using composed.induct with
  | case1 => simp [composed, spellings]
  | case2 cs ih =>
      rw [composed]
      have hkelvin : ['\u212a'] ∈ spellingsOf 'K' := by decide
      exact append_mem_spellings hkelvin ih
  | case3 cs ih =>
      rw [composed]
      have hcaron : ['c', '\u030c'] ∈ spellingsOf 'č' := by decide
      exact append_mem_spellings hcaron ih
  | case4 c cs hkelvin hcaron ih =>
      rw [composed]
      · exact append_mem_spellings (singleton_mem_spellingsOf c) ih
      · exact hkelvin
      · exact hcaron

/-- A listed symbol is the composed form of each of its spellings. -/
theorem composed_of_mem_spellings :
    ∀ symbol ∈ rightsideSymbols, ∀ cs ∈ spellings symbol.toList, composed cs = symbol.toList := by
  decide

/-- The listed symbols in all their spellings. -/
def rightsideSpellings : List String :=
  ["€", "£", "CHF", "kr", "zł", "Ft", "Kč", "Kc\u030c", "\u212ač", "\u212ac\u030c", "kn", "RSD",
   "лв", "lei", "₽", "₺", "₴"]

theorem map_ofList_flatMap_spellings :
    (rightsideSymbols.flatMap fun symbol => spellings symbol.toList).map String.ofList =
      rightsideSpellings := by
  decide

/-- A symbol stands on the right just when it is, between blanks, a spelling of a listed symbol. -/
theorem ofSymbol_eq_rightside_iff {symbol : String} :
    ofSymbol symbol = .rightside ↔ trim symbol ∈ rightsideSpellings := by
  have hside : ofSymbol symbol = .rightside ↔
      String.ofList (composed (trimList symbol.toList)) ∈ rightsideSymbols := by
    rw [ofSymbol]
    split <;> simp_all
  rw [hside, ← map_ofList_flatMap_spellings, trim,
    List.mem_map_of_injective fun _ _ h => String.ofList_injective h, List.mem_flatMap]
  constructor
  · intro hlisted
    refine ⟨_, hlisted, ?_⟩
    rw [String.toList_ofList]
    exact mem_spellings_composed _
  · rintro ⟨listed, hlisted, hspelling⟩
    rw [composed_of_mem_spellings listed hlisted _ hspelling, String.ofList_toList]
    exact hlisted

/-- No spelling of a symbol on the right holds a character of a placeholder. -/
theorem all_not_mem_canonical : ∀ symbol ∈ rightsideSpellings,
    symbol.toList.all (fun c => !canonical.toList.contains c) = true := by
  decide

/-- No character of a placeholder is blank. -/
theorem all_canonical_not_isBlank : canonical.toList.all (fun c => !isBlank c) = true := by
  decide

/-- A symbol on the right holds no character of a placeholder, whatever blanks are around it. -/
theorem not_mem_canonical_of_rightside {symbol : String} (h : ofSymbol symbol = .rightside)
    {c : Char} (hc : c ∈ symbol.toList) : c ∉ canonical.toList := by
  intro hmem
  rcases isBlank_or_mem_trimList hc with hblank | htrim
  · have hnot := List.all_eq_true.mp all_canonical_not_isBlank c hmem
    simp [hblank] at hnot
  · rw [← toList_trim] at htrim
    have hnot := all_not_mem_canonical _ (ofSymbol_eq_rightside_iff.mp h)
    have hother := List.all_eq_true.mp hnot c htrim
    simp [hmem] at hother

end Placement

end Transcription
