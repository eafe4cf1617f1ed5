import Transcription.Literal
import Mathlib.Data.List.Basic
import Mathlib.Data.List.TakeWhile

/-!
# Looking an offset up by halving

To find the last span that begins at or before an offset, not all spans have to be looked at: a
search halves the range in which the first later one lies. It relies on the order of the spans.
Where they begin one after the other it finds what a search from the left finds.
-/

namespace Transcription.Literal

/-- The first index of a range at which a test fails, when it fails from there on, by halving the
range. -/
def firstFailure (test : Nat → Bool) (lo hi : Nat) : Nat :=
  if lo < hi then
    if test ((lo + hi) / 2) then firstFailure test ((lo + hi) / 2 + 1) hi
    else firstFailure test lo ((lo + hi) / 2)
  else
    lo
termination_by hi - lo

/-- Whether an offset lies in one of the spans of an ordered list, by halving the list. -/
def isProtectedByHalving (spans : List Span) (pos : Nat) : Bool :=
  let later := firstFailure (fun i => spans[i]?.any fun s => decide (s.start ≤ pos)) 0 spans.length
  decide (0 < later) && spans[later - 1]?.any fun s => s.contains pos

/-- A search by halving finds the index before which the test holds and from which on it fails. -/
theorem firstFailure_eq {test : Nat → Bool} {k : Nat} (htest : ∀ i, test i = decide (i < k))
    {lo hi : Nat} (hlo : lo ≤ k) (hhi : k ≤ hi) : firstFailure test lo hi = k := by
  induction hgap : hi - lo using Nat.strong_induction_on generalizing lo hi with
  | h gap ih =>
      rw [firstFailure, htest]
      by_cases hlt : lo < hi
      · by_cases hmid : (lo + hi) / 2 < k
        · rw [if_pos hlt, decide_eq_true hmid, if_pos rfl]
          exact ih (hi - ((lo + hi) / 2 + 1)) (by omega) hmid hhi rfl
        · rw [if_pos hlt, decide_eq_false hmid, if_neg Bool.false_ne_true]
          exact ih ((lo + hi) / 2 - lo) (by omega) hlo (Nat.not_lt.mp hmid) rfl
      · rw [if_neg hlt]
        omega

/-- In an ordered list the spans that begin at or before an offset are those that a search from the
left passes. -/
theorem any_start_le_eq {spans : List Span} (horder : spans.Pairwise fun a b => a.start ≤ b.start)
    (pos i : Nat) :
    (spans[i]?.any fun s => decide (s.start ≤ pos)) =
      decide (i < (spans.takeWhile fun s => decide (s.start ≤ pos)).length) := by
  induction spans generalizing i with
  | nil => simp
  | cons t ts ih =>
      obtain ⟨hfirst, hrest⟩ := List.pairwise_cons.mp horder
      by_cases ht : t.start ≤ pos
      · cases i with
        | zero => simp [ht]
        | succ i => simp [ht, ih hrest i]
      · have hnone : ∀ sp ∈ t :: ts, ¬ sp.start ≤ pos := by
          intro sp hsp hle
          rcases List.mem_cons.mp hsp with rfl | hlater
          · exact ht hle
          · exact ht (Nat.le_trans (hfirst sp hlater) hle)
        rw [List.takeWhile_cons_of_neg (by simpa using ht)]
        cases hget : (t :: ts)[i]? with
        | none => rfl
        | some sp => simpa using hnone sp (List.mem_of_getElem? hget)

/-- Where spans begin one after the other, halving finds what a search from the left finds. -/
theorem isProtectedByHalving_eq {spans : List Span}
    (horder : spans.Pairwise fun a b => a.start ≤ b.start) (pos : Nat) :
    isProtectedByHalving spans pos = isProtected spans pos := by
  have hlater := firstFailure_eq (any_start_le_eq horder pos) (Nat.zero_le _)
    (List.takeWhile_sublist (l := spans) fun s => decide (s.start ≤ pos)).length_le
  rw [isProtectedByHalving, hlater, isProtected, List.getLast?_eq_getElem?]
  have hbegun := List.takeWhile_prefix (l := spans) fun s => decide (s.start ≤ pos)
  generalize spans.takeWhile (fun s => decide (s.start ≤ pos)) = begun at hbegun ⊢
  cases begun with
  | nil => rfl
  | cons t ts =>
      rw [List.prefix_iff_getElem?.mp hbegun ((t :: ts).length - 1) (by simp)]
      simp

end Transcription.Literal
