import Transcription.Json.Token
import Mathlib.Data.List.TakeDrop
import Mathlib.Data.List.TakeWhile
import Mathlib.Tactic.IntervalCases

/-!
# The numerals of natural numbers

A natural number is written in decimal digits without a leading zero, and a word of such digits is
read as its numeral. When the number has 64 bits no digit of it is dropped on the way to a double,
and rounding at most doubles it, so its magnitude is far from the end of a double's range.
-/

namespace Transcription.Json

namespace Numeral

/-- The digits of a positive number do not begin with zero. -/
theorem head?_toDigits_ne_zero {n : Nat} (h : 0 < n) : (Nat.toDigits 10 n).head? ≠ some '0' := by
  induction n using Nat.strongRecOn with
  | ind n ih =>
      by_cases hn : n < 10
      · rw [Nat.toDigits_of_lt_base hn]
        interval_cases n <;> decide
      · -- the first digit is that of the quotient
        have hquotient := ih (n / 10) (by omega) (by omega)
        obtain ⟨c, cs, hdigits⟩ :=
          List.exists_cons_of_ne_nil (Nat.toDigits_ne_nil (n := n / 10) (b := 10))
        rw [Nat.toDigits_of_base_le (by decide) (by omega), hdigits, List.cons_append]
        rwa [hdigits] at hquotient

theorem isDigit_of_mem_toDigits {n : Nat} {c : Char} (h : c ∈ Nat.toDigits 10 n) :
    c.isDigit = true :=
  Nat.isDigit_of_mem_toDigits (by decide) (by decide) h

/-- A run of digits is a number's whole spelling. -/
theorem span_toDigits (n : Nat) :
    (Nat.toDigits 10 n).span Char.isDigit = (Nat.toDigits 10 n, []) := by
  have hall : ∀ c ∈ Nat.toDigits 10 n, c.isDigit = true := fun _ => isDigit_of_mem_toDigits
  rw [List.span_eq_takeWhile_dropWhile, List.takeWhile_eq_self_iff.mpr hall,
    List.dropWhile_eq_nil_iff.mpr hall]

/-- The digits of a natural number are read as its numeral. -/
theorem ofList?_toDigits (n : Nat) : ofList? (Nat.toDigits 10 n) = some (ofNat n) := by
  obtain ⟨c, cs, hdigits⟩ := List.exists_cons_of_ne_nil (Nat.toDigits_ne_nil (n := n) (b := 10))
  have hc : c.isDigit = true := isDigit_of_mem_toDigits (n := n) (by simp [hdigits])
  have hminus : c ≠ '-' := by
    rintro rfl
    exact absurd hc (by decide)
  -- a leading zero is all there is
  have hzero : ((c :: cs).head? == some '0' && (c :: cs).length != 1) = false := by
    by_cases hn : n = 0
    · subst hn
      obtain ⟨rfl, rfl⟩ := List.cons.inj hdigits
      decide
    · have hhead := head?_toDigits_ne_zero (Nat.pos_of_ne_zero hn)
      rw [hdigits] at hhead
      rw [beq_eq_false_iff_ne.mpr hhead, Bool.false_and]
  have hspan := span_toDigits n
  rw [hdigits] at hspan
  unfold ofList?
  rw [hdigits]
  split
  next negative rest hsign =>
    split at hsign
    · next heq => exact absurd (List.cons.inj heq).1 hminus
    · obtain ⟨rfl, rfl⟩ := Prod.mk.inj hsign
      simp only [hspan, List.isEmpty_cons, Bool.false_or, hzero, ofNat, hdigits]
      rfl

/-! ### Magnitude -/

/-- Gathering digits that fit 64 bits drops none of them. -/
theorem foldl_pushWhole {ds : List Char} {v : Nat} (h : Nat.ofDigitChars 10 ds v ≤ maxNatural) :
    ds.foldl Scaled.pushWhole ⟨v, 0, false⟩ = ⟨Nat.ofDigitChars 10 ds v, 0, false⟩ := by
  induction ds generalizing v with
  | nil => rfl
  | cons c ds ih =>
      rw [Nat.ofDigitChars_cons] at h ⊢
      have hfits : ¬ maxNatural < v * 10 + (c.toNat - '0'.toNat) := by
        -- later digits do not make the number smaller
        have hle : 10 * v + (c.toNat - '0'.toNat) ≤
            10 ^ ds.length * (10 * v + (c.toNat - '0'.toNat)) :=
          Nat.le_mul_of_pos_left _ (Nat.pow_pos (by decide))
        rw [Nat.ofDigitChars_eq_ofDigitChars_zero] at h
        omega
      rw [List.foldl_cons, Scaled.pushWhole]
      simp only [Bool.false_or, decide_eq_false hfits, Bool.false_eq_true, if_false]
      rw [Nat.mul_comm v 10, ih h]

theorem scaled_ofNat {n : Nat} (h : n ≤ maxNatural) : (ofNat n).scaled = ⟨n, 0, false⟩ := by
  have hdigits : Nat.ofDigitChars 10 (Nat.toDigits 10 n) 0 = n := Nat.ofDigitChars_ten_toDigits
  have hfits : Nat.ofDigitChars 10 (Nat.toDigits 10 n) 0 ≤ maxNatural := by rwa [hdigits]
  have hfold := foldl_pushWhole hfits
  rw [hdigits] at hfold
  rw [scaled, ofNat, hfold]
  rfl

/-- Rounding does not take a number beyond the next power of two. -/
theorem round53_le {n k : Nat} (h : n < 2 ^ k) : round53 n ≤ 2 ^ k := by
  rw [round53]
  split
  · exact Nat.le_of_lt h
  · next hlarge =>
    have hn : n ≠ 0 := by
      rintro rfl
      exact hlarge (by decide)
    have hlog : n.log2 < k := (Nat.log2_lt hn).mpr h
    have hlog53 : 53 ≤ n.log2 := by
      rw [← Nat.not_lt, Nat.log2_lt hn]
      exact hlarge
    -- the quotient has 53 bits, and rounding up adds one to it
    have hquotient : n >>> (n.log2 - 52) < 2 ^ 53 := by
      rw [Nat.shiftRight_eq_div_pow, Nat.div_lt_iff_lt_mul (Nat.pow_pos (by decide)), ← Nat.pow_add]
      have : 53 + (n.log2 - 52) = n.log2 + 1 := by omega
      rw [this]
      exact Nat.lt_log2_self
    have hpow : 2 ^ 53 * 2 ^ (n.log2 - 52) ≤ 2 ^ k := by
      rw [← Nat.pow_add]
      exact Nat.pow_le_pow_right (by decide) (by omega)
    simp only [Nat.shiftLeft_eq _ (n.log2 - 52)]
    refine Nat.le_trans (Nat.mul_le_mul_right _ ?_) hpow
    split
    · exact hquotient
    · exact Nat.le_of_lt hquotient

/-- A double can hold the magnitude of a number of 64 bits. -/
theorem isFinite_ofNat {n : Nat} (h : n ≤ maxNatural) : (ofNat n).isFinite = true := by
  have hround : round53 n ≤ 2 ^ 64 := round53_le (Nat.lt_succ_of_le h)
  have hagain : round53 (round53 n * round53 (Nat.pow 10 0)) ≤ 2 ^ 65 := by
    refine round53_le ?_
    have hone : round53 (Nat.pow 10 0) = 1 := rfl
    rw [hone, Nat.mul_one]
    exact Nat.lt_of_le_of_lt hround (by decide)
  have hbound : round53 (round53 n * round53 (Nat.pow 10 0)) < 1 <<< 1024 :=
    Nat.lt_of_le_of_lt hagain (by decide)
  have hproduct : productIsFinite n 0 = true := by
    rw [productIsFinite, decide_eq_true hbound, decide_eq_true (Nat.zero_le maxPower),
      Bool.and_self, Bool.or_true]
  rw [isFinite, scaled_ofNat h]
  exact hproduct

end Numeral

end Transcription.Json
