import Transcription.Address
import Mathlib.Data.Nat.Digits.Defs

/-!
# Addresses in the order of their numbers

The parts of an address are the digits of its number, the first one counting most, and each of them
is below the base of its family. Lists of as many digits come in the order of the numbers that they
spell, so addresses of one family are compared by their numbers.
-/

namespace Transcription.Address

/-- The number that digits spell, the first digit counting most. -/
theorem foldl_eq_ofDigits (b : Nat) (ps : List Nat) :
    ps.foldl (fun n p => n * b + p) 0 = Nat.ofDigits b ps.reverse := by
  rw [Nat.ofDigits_eq_foldr, List.foldr_reverse]
  simp only [Nat.cast_id, Nat.add_comm, Nat.mul_comm]

theorem value_eq_ofDigits (a : Address) : a.value = Nat.ofDigits a.base a.parts.reverse :=
  foldl_eq_ofDigits a.base a.parts

theorem ofDigits_reverse_cons (b p : Nat) (ps : List Nat) :
    Nat.ofDigits b (p :: ps).reverse = Nat.ofDigits b ps.reverse + b ^ ps.length * p := by
  rw [List.reverse_cons, Nat.ofDigits_append, Nat.ofDigits_singleton, List.length_reverse]

/-- Digits below the base spell less than the next power of it. -/
theorem ofDigits_reverse_lt {b : Nat} (hb : 1 < b) {ps : List Nat} (h : ∀ p ∈ ps, p < b) :
    Nat.ofDigits b ps.reverse < b ^ ps.length := by
  rw [← List.length_reverse]
  exact Nat.ofDigits_lt_base_pow_length hb fun p hp => h p (List.mem_reverse.mp hp)

/-- As many digits come in the order of the numbers that they spell. -/
theorem partsLE_iff {b : Nat} (hb : 1 < b) {ps qs : List Nat} (hlength : ps.length = qs.length)
    (hps : ∀ p ∈ ps, p < b) (hqs : ∀ q ∈ qs, q < b) :
    partsLE ps qs = true ↔ Nat.ofDigits b ps.reverse ≤ Nat.ofDigits b qs.reverse := by
  induction ps generalizing qs with
  | nil =>
      obtain rfl := List.length_eq_zero_iff.mp hlength.symm
      simp [partsLE]
  | cons p ps ih =>
      obtain ⟨q, qs, rfl⟩ := List.exists_cons_of_length_eq_add_one hlength.symm
      have hrest : ps.length = qs.length := Nat.succ.inj hlength
      have hps' : ∀ x ∈ ps, x < b := fun x hx => hps x (List.mem_cons_of_mem p hx)
      have hqs' : ∀ x ∈ qs, x < b := fun x hx => hqs x (List.mem_cons_of_mem q hx)
      have hlow := ofDigits_reverse_lt hb hps'
      have hlow' := ofDigits_reverse_lt hb hqs'
      rw [ofDigits_reverse_cons, ofDigits_reverse_cons, hrest]
      rw [hrest] at hlow
      rcases Nat.lt_trichotomy p q with hlt | rfl | hgt
      · -- the first digits decide, whatever follows
        have hpow := Nat.mul_le_mul_left (b ^ qs.length) (Nat.succ_le_of_lt hlt)
        rw [Nat.mul_succ] at hpow
        simp only [partsLE, decide_eq_true hlt, Bool.true_or, true_iff]
        omega
      · have htail := ih hrest hps' hqs'
        simp only [partsLE, Nat.lt_irrefl, decide_false, beq_self_eq_true, Bool.false_or,
          Bool.true_and, htail]
        omega
      · have hpow := Nat.mul_le_mul_left (b ^ qs.length) (Nat.succ_le_of_lt hgt)
        rw [Nat.mul_succ] at hpow
        have hne : (p == q) = false := beq_eq_false_iff_ne.mpr (Nat.ne_of_gt hgt)
        simp only [partsLE, hne, Bool.false_and, Bool.or_false, decide_eq_true_eq]
        omega

theorem one_lt_base (a : Address) : 1 < a.base := by
  cases a <;> simp [base]

theorem lt_base_of_mem_parts {a : Address} {p : Nat} (h : p ∈ a.parts) : p < a.base := by
  cases a with
  | v4 octets =>
      obtain ⟨o, -, rfl⟩ := List.mem_map.mp h
      exact o.toNat_lt
  | v6 groups =>
      obtain ⟨g, -, rfl⟩ := List.mem_map.mp h
      exact g.toNat_lt

/-- Addresses of one family have the same base and as many parts. -/
theorem base_eq_and_length_eq {a b : Address} (h : a.isV6 = b.isV6) :
    a.base = b.base ∧ a.parts.length = b.parts.length := by
  cases a <;> cases b <;> simp_all [isV6, base, parts]

/-- Addresses are compared within a family, by their numbers. -/
theorem le_iff {a b : Address} : a.le b = true ↔ a.isV6 = b.isV6 ∧ a.value ≤ b.value := by
  rw [le, Bool.and_eq_true, beq_iff_eq]
  refine and_congr_right fun hfamily => ?_
  obtain ⟨hbase, hlength⟩ := base_eq_and_length_eq hfamily
  rw [value_eq_ofDigits, value_eq_ofDigits, ← hbase]
  exact partsLE_iff (one_lt_base a) hlength (fun p => lt_base_of_mem_parts)
    fun q hq => hbase ▸ lt_base_of_mem_parts hq

end Transcription.Address
