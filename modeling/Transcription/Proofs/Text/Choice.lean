import Transcription.Proofs.Text.Walk
import Mathlib.Data.List.Sort

/-!
# Places chosen from the left

Of the places where something could be replaced, those that are chosen do not overlap, and one is
passed over only when it overlaps a chosen place to its left. This settles the choice: going from
left to right, each candidate that is still free is taken. A substitution walk makes this choice
among the places where its target stands and is admitted, and counts it.
-/

namespace Transcription.Text

/-- Places of some width that are chosen from the left among candidates. -/
structure IsLeftmostChoice (candidate : Nat → Prop) (width : Nat) (places : List Nat) : Prop where
  /-- They come in order and do not overlap. -/
  apart : places.Pairwise fun p q => p + width ≤ q
  candidate_of_mem : ∀ p ∈ places, candidate p
  /-- A candidate is chosen, or it overlaps a chosen place to its left. -/
  covered : ∀ q, candidate q → ∃ p ∈ places, p ≤ q ∧ q < p + width

namespace IsLeftmostChoice

variable {candidate later : Nat → Prop} {width : Nat} {places others : List Nat}

theorem nil (h : ∀ q, ¬ candidate q) : IsLeftmostChoice candidate width [] :=
  ⟨.nil, by simp, fun q hq => absurd hq (h q)⟩

/-- Where nothing can be chosen at the beginning, the choice is made behind it. -/
theorem shift {offset : Nat} (h : IsLeftmostChoice later width places)
    (hlater : ∀ q, candidate (q + offset) ↔ later q) (hnone : ∀ q, q < offset → ¬ candidate q) :
    IsLeftmostChoice candidate width (places.map (· + offset)) where
  apart := by
    rw [List.pairwise_map]
    exact h.apart.imp fun hpq => by omega
  candidate_of_mem p hp := by
    obtain ⟨q, hq, rfl⟩ := List.mem_map.mp hp
    exact (hlater q).mpr (h.candidate_of_mem q hq)
  covered q hq := by
    have hoffset : offset ≤ q := by
      by_contra hlt
      exact hnone q (by omega) hq
    have hq' : later (q - offset) := by
      rw [← hlater, Nat.sub_add_cancel hoffset]
      exact hq
    obtain ⟨p, hp, hpq, hqp⟩ := h.covered _ hq'
    exact ⟨p + offset, List.mem_map_of_mem hp, by omega, by omega⟩

/-- A candidate at the beginning is chosen, and the choice goes on behind it. -/
theorem cons (h : IsLeftmostChoice later width places)
    (hlater : ∀ q, candidate (q + width) ↔ later q) (hfirst : candidate 0) :
    IsLeftmostChoice candidate width (0 :: places.map (· + width)) where
  apart := by
    rw [List.pairwise_cons, List.pairwise_map]
    refine ⟨fun p hp => ?_, h.apart.imp fun hpq => by omega⟩
    obtain ⟨q, -, rfl⟩ := List.mem_map.mp hp
    omega
  candidate_of_mem p hp := by
    rcases List.mem_cons.mp hp with rfl | hp
    · exact hfirst
    · obtain ⟨q, hq, rfl⟩ := List.mem_map.mp hp
      exact (hlater q).mpr (h.candidate_of_mem q hq)
  covered q hq := by
    by_cases hwidth : q < width
    · exact ⟨0, by simp, by omega, by omega⟩
    · have hq' : later (q - width) := by
        rw [← hlater, Nat.sub_add_cancel (by omega)]
        exact hq
      obtain ⟨p, hp, hpq, hqp⟩ := h.covered _ hq'
      exact ⟨p + width, List.mem_cons_of_mem 0 (List.mem_map_of_mem hp), by omega, by omega⟩

/-- Of two chosen places the left one ends before the right one begins. -/
theorem add_width_le (h : IsLeftmostChoice candidate width places) {p q : Nat} (hp : p ∈ places)
    (hq : q ∈ places) (hlt : p < q) : p + width ≤ q := by
  obtain ⟨i, hi, rfl⟩ := List.mem_iff_getElem.mp hp
  obtain ⟨j, hj, rfl⟩ := List.mem_iff_getElem.mp hq
  have hapart := List.pairwise_iff_getElem.mp h.apart
  rcases Nat.lt_trichotomy i j with hij | rfl | hji
  · exact hapart i j hi hj hij
  · omega
  · have := hapart j i hj hi hji
    omega

/-- Where no two candidates overlap, all of them are chosen. -/
theorem mem_iff_of_apart (h : IsLeftmostChoice candidate width places)
    (hapart : ∀ p q, candidate p → candidate q → p < q → p + width ≤ q) (q : Nat) :
    q ∈ places ↔ candidate q := by
  constructor
  · intro hq
    exact h.candidate_of_mem q hq
  · intro hq
    obtain ⟨p, hp, hpq, hqp⟩ := h.covered q hq
    rcases Nat.lt_or_eq_of_le hpq with hlt | rfl
    · have := hapart p q (h.candidate_of_mem p hp) hq hlt
      omega
    · exact hp

/-- A place of one choice is a place of another one, if this is so for the places to its left. -/
theorem mem_of_mem (h : IsLeftmostChoice candidate width places)
    (h' : IsLeftmostChoice candidate width others) {p : Nat} (hp : p ∈ places)
    (hleft : ∀ q, q < p → q ∈ others → q ∈ places) : p ∈ others := by
  obtain ⟨q, hq, hqp, hpq⟩ := h'.covered p (h.candidate_of_mem p hp)
  rcases Nat.lt_or_eq_of_le hqp with hlt | heq
  · -- a place further left would overlap this one
    have := h.add_width_le (hleft q hlt hq) hp hlt
    omega
  · exact heq ▸ hq

/-- There is one choice from the left. -/
theorem unique (h : IsLeftmostChoice candidate width places)
    (h' : IsLeftmostChoice candidate width others) (hwidth : 0 < width) : places = others := by
  have hmem : ∀ p, p ∈ places ↔ p ∈ others := by
    intro p
    induction p using Nat.strongRecOn with
    | ind p ih =>
        exact ⟨fun hp => h.mem_of_mem h' hp fun q hq => (ih q hq).mpr,
          fun hp => h'.mem_of_mem h hp fun q hq => (ih q hq).mp⟩
  have hsorted : ∀ {l : List Nat}, l.Pairwise (fun p q => p + width ≤ q) → l.Pairwise (· < ·) :=
    fun hl => hl.imp fun hle => by omega
  exact (hsorted h.apart).eq_of_mem_iff (hsorted h'.apart) hmem

end IsLeftmostChoice

namespace Substitution

variable {σ : Type} (s : Substitution σ)

/-- The target stands at an offset and may be replaced there, as far as the text itself is
concerned. -/
def Stands (ctx : σ) (text : List Char) (q : Nat) : Prop :=
  s.matchesAt ((text.take q).foldl s.extend ctx) (text.drop q) = true

variable {s}

theorem stands_cons_succ (ctx : σ) (c : Char) (cs : List Char) (q : Nat) :
    s.Stands ctx (c :: cs) (q + 1) ↔ s.Stands (s.extend ctx c) cs q := Iff.rfl

theorem stands_target_append (ctx : σ) (rest : List Char) (q : Nat) :
    s.Stands ctx (s.target ++ rest) (q + s.target.length) ↔
      s.Stands (s.target.foldl s.extend ctx) rest q := by
  rw [Stands, Stands, Nat.add_comm, List.take_length_add_append, List.drop_length_add_append,
    List.foldl_append]

/-- A walk replaces the target at the places that are chosen from the left among those where it
stands. -/
theorem exists_choice_walk (hne : s.target ≠ []) (ctx : σ) (text : List Char) :
    ∃ places, IsLeftmostChoice (s.Stands ctx text) s.target.length places ∧
      (s.walk ctx 0 text).count = places.length := by
  induction ctx, text using walk_induction (s := s) hne with
  | nil ctx =>
      refine ⟨[], .nil fun q hq => ?_, by simp⟩
      obtain ⟨rest, hrest⟩ := exists_eq_append_of_matchesAt hq
      rw [List.drop_nil] at hrest
      exact hne (List.append_eq_nil_iff.mp hrest.symm).1
  | replace ctx rest hm ih =>
      obtain ⟨places, hplaces, hcount⟩ := ih
      refine ⟨_, hplaces.cons (stands_target_append ctx rest) hm, ?_⟩
      rw [walk_of_matchesAt rfl hne hm, Rewritten.count_replace, hcount]
      simp
  | copy ctx c cs hm ih =>
      obtain ⟨places, hplaces, hcount⟩ := ih
      refine ⟨_, hplaces.shift (stands_cons_succ ctx c cs) fun q hq => ?_, ?_⟩
      · obtain rfl : q = 0 := by omega
        intro hstands
        exact Bool.false_ne_true (hm.symm.trans hstands)
      · rw [walk_cons_of_not_matchesAt hm, Rewritten.count_copy, hcount]
        simp

end Substitution

end Transcription.Text
