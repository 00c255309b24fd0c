import JadeEditor.Number.Binary64
import Mathlib.Data.Nat.Digits.Defs

/-!
# Integers among the numbers

Below `2 ^ 53` every natural number is a number of its own, since its digits to the base two
fit into a significand. From there on neighbours share a number, but none of them is rounded
to a number below `2 ^ 53`: the significand is at least `2 ^ 52` and the exponent positive.
-/

namespace JadeEditor.Number

set_option autoImplicit false

theorem power_natCast (base k : Nat) : power base (k : Int) = base ^ k := by
  rw [power, Int.toNat_natCast]
  rfl

theorem power_neg_natCast (base k : Nat) : power base (-(k : Int)) = 1 := by
  rw [power, Int.toNat_neg_natCast]
  rfl

theorem power_pos {base : Nat} (h : 0 < base) (e : Int) : 0 < power base e := Nat.pow_pos h

/-! ## The value of a number -/

theorem toInt?_of_exponent_nonneg (negative : Bool) (m k : Nat) :
    (finite negative m (k : Int)).toInt?
      = some (if negative then -((m * 2 ^ k : Nat) : Int) else (m * 2 ^ k : Nat)) := by
  rw [toInt?]
  simp only [power_natCast, power_neg_natCast, Nat.mod_one, Nat.div_one, if_true]

theorem toInt?_of_multiple (negative : Bool) (n k : Nat) :
    (finite negative (n * 2 ^ k) (-(k : Int))).toInt?
      = some (if negative then -(n : Int) else n) := by
  have hpos : 0 < 2 ^ k := Nat.two_pow_pos k
  rw [toInt?]
  simp only [Int.neg_neg, power_natCast, power_neg_natCast, Nat.mul_mod_left,
    Nat.mul_div_cancel _ hpos, Nat.mul_one, if_true]

/-- A number that is an integer has a significand that the power of two in its denominator
divides. -/
theorem exists_of_toInt? {negative : Bool} {m : Nat} {e k : Int}
    (h : (finite negative m e).toInt? = some k) : ∃ q : Nat, m = q * power 2 (-e)
      ∧ k = if negative then -((q * power 2 e : Nat) : Int) else (q * power 2 e : Nat) := by
  rw [toInt?] at h
  simp only at h
  split at h
  · rename_i hdivides
    have hcut := Nat.div_add_mod' m (power 2 (-e))
    rw [hdivides, Nat.add_zero] at hcut
    exact ⟨m / power 2 (-e), hcut.symm, (Option.some.inj h).symm⟩
  · cases h

section Order

variable {x : Number} {k : Int} (h : x.toInt? = some k)
include h

theorem isPositive_iff : x.isPositive = true ↔ 0 < k := by
  cases x with
  | infinite => cases h
  | nan => cases h
  | finite negative m e =>
    obtain ⟨q, rfl, rfl⟩ := exists_of_toInt? h
    have hpos := power_pos (show 0 < 2 by decide) e
    have hpos' := power_pos (show 0 < 2 by decide) (-e)
    cases negative with
    | true =>
      simp only [isPositive, Bool.not_true, Bool.false_and, Bool.false_eq_true, if_true, false_iff]
      omega
    | false =>
      have hvalue : 0 < q * power 2 e ↔ 0 < q * power 2 (-e) := by
        rw [Nat.mul_pos_iff_of_pos_right hpos, Nat.mul_pos_iff_of_pos_right hpos']
      rw [isPositive, Bool.not_false, Bool.true_and, bne_iff_ne, ← Nat.pos_iff_ne_zero, ← hvalue]
      exact Int.natCast_pos.symm

theorem isAtMost_iff (bound : Nat) : x.isAtMost bound = true ↔ k ≤ bound := by
  cases x with
  | infinite => cases h
  | nan => cases h
  | finite negative m e =>
    obtain ⟨q, rfl, rfl⟩ := exists_of_toInt? h
    cases negative with
    | true =>
      simp only [isAtMost, Bool.true_or, if_true, true_iff]
      omega
    | false =>
      have hpos := power_pos (show 0 < 2 by decide) (-e)
      rw [isAtMost, Bool.false_or, decide_eq_true_eq, Nat.mul_right_comm,
        Nat.mul_le_mul_right_iff hpos]
      exact Int.ofNat_le.symm

end Order

/-! ## Natural numbers as numbers -/

theorem roundQuotient_one (n : Nat) : roundQuotient n 1 = n := by
  simp [roundQuotient, Nat.mod_one]

theorem le_roundQuotient (num den : Nat) : num / den ≤ roundQuotient num den := by
  simp only [roundQuotient]
  split
  · exact Nat.le_refl _
  · split
    · exact Nat.le_succ _
    · split
      · exact Nat.le_refl _
      · exact Nat.le_succ _

/-- The digits of a number below `2 ^ 53` fit into the significand. -/
theorem ofRatio_of_lt {n : Nat} (hn : n ≠ 0) (h : n < 2 ^ 53) (negative : Bool) :
    ofRatio negative n 1
      = finite negative (n * 2 ^ (52 - n.log2)) (-((52 - n.log2 : Nat) : Int)) := by
  have hlog : n.log2 < 53 := (Nat.log2_lt hn).mpr h
  obtain ⟨k, hk⟩ : ∃ k, k = 52 - n.log2 := ⟨_, rfl⟩
  have hguess : (n.log2 : Int) - Nat.log2 1 - 52 = -(k : Int) := by
    have hone : Nat.log2 1 = 0 := rfl
    omega
  have hscale : scale n 1 (-(k : Int)) = (n * 2 ^ k, 1) := by
    rw [scale, Int.neg_neg, power_natCast, power_neg_natCast]
  have hsize : n.log2 + k = 52 := by omega
  have hlow : 2 ^ 52 ≤ n * 2 ^ k := by
    rw [← hsize, Nat.pow_add]
    exact Nat.mul_le_mul_right _ (Nat.log2_self_le hn)
  have hhigh : n * 2 ^ k < 2 ^ 53 := by
    have hsize' : n.log2 + 1 + k = 53 := by omega
    rw [← hsize', Nat.pow_add]
    exact Nat.mul_lt_mul_of_pos_right Nat.lt_log2_self (Nat.two_pow_pos k)
  have hnormal : ¬ n * 2 ^ k < power 2 52 := Nat.not_lt.mpr hlow
  have hexponent : max (-(k : Int)) minExponent = -(k : Int) := by
    rw [minExponent]
    omega
  have hcarry : ¬ n * 2 ^ k = power 2 53 := Nat.ne_of_lt hhigh
  have hrange : ¬ maxExponent < -(k : Int) := by
    rw [maxExponent]
    omega
  rw [ofRatio, if_neg hn, ← hk]
  simp only [hguess, hscale, Nat.div_one, if_neg hnormal, hexponent, roundQuotient_one,
    if_neg hcarry, if_neg hrange]

/-- From `2 ^ 53` on the significand is full and the exponent positive. -/
theorem ofRatio_of_ge {n : Nat} (h : 2 ^ 53 ≤ n) (negative : Bool) :
    ofRatio negative n 1 = infinite negative
      ∨ ∃ m k : Nat, 2 ^ 52 ≤ m ∧ 0 < k ∧ ofRatio negative n 1 = finite negative m k := by
  have hn : n ≠ 0 := Nat.ne_of_gt (Nat.lt_of_lt_of_le (Nat.two_pow_pos 53) h)
  have hlog : 53 ≤ n.log2 := (Nat.le_log2 hn).mpr h
  obtain ⟨k, hk⟩ : ∃ k, k = n.log2 - 52 := ⟨_, rfl⟩
  have hguess : (n.log2 : Int) - Nat.log2 1 - 52 = k := by
    have hone : Nat.log2 1 = 0 := rfl
    omega
  have hscale : scale n 1 (k : Int) = (n, 2 ^ k) := by
    rw [scale, power_natCast, power_neg_natCast, Nat.mul_one, Nat.one_mul]
  have hlow : 2 ^ 52 ≤ n / 2 ^ k := by
    rw [Nat.le_div_iff_mul_le (Nat.two_pow_pos k), ← Nat.pow_add, hk,
      Nat.add_sub_cancel' (by omega)]
    exact Nat.log2_self_le hn
  have hround := Nat.le_trans hlow (le_roundQuotient n (2 ^ k))
  have hnormal : ¬ n / 2 ^ k < power 2 52 := Nat.not_lt.mpr hlow
  have hexponent : max (k : Int) minExponent = k := by
    rw [minExponent]
    omega
  rw [ofRatio, if_neg hn]
  simp only [hguess, hscale, if_neg hnormal, hexponent]
  split
  · -- The significand was rounded up to the next power of two.
    split
    · exact .inl rfl
    · exact .inr ⟨2 ^ 52, k + 1, Nat.le_refl _, Nat.succ_pos k, rfl⟩
  · split
    · exact .inl rfl
    · exact .inr ⟨_, k, hround, by omega, rfl⟩

theorem toInt?_ofRatio_of_lt {n : Nat} (h : n < 2 ^ 53) :
    (ofRatio false n 1).toInt? = some (n : Int) := by
  by_cases hn : n = 0
  · have hzero := toInt?_of_multiple false 0 1074
    rw [Nat.zero_mul] at hzero
    rw [hn, ofRatio, if_pos rfl]
    exact hzero
  · rw [ofRatio_of_lt hn h, toInt?_of_multiple]
    rfl

theorem le_of_toInt?_ofRatio {n : Nat} (h : 2 ^ 53 ≤ n) {k : Int}
    (hk : (ofRatio false n 1).toInt? = some k) : 2 ^ 53 ≤ k := by
  rcases ofRatio_of_ge h false with hinfinite | ⟨m, e, hm, he, hfinite⟩
  · rw [hinfinite] at hk
    cases hk
  · rw [hfinite, toInt?_of_exponent_nonneg] at hk
    obtain rfl := Option.some.inj hk
    have hdouble : 2 ^ 1 ≤ 2 ^ e := Nat.pow_le_pow_right (by decide) he
    have hvalue : 2 ^ 52 * 2 ^ 1 ≤ m * 2 ^ e := Nat.mul_le_mul hm hdouble
    exact Int.ofNat_le.mpr hvalue

theorem toInt?_ofInt {n : Nat} (h : n < 2 ^ 53) : (ofInt n).toInt? = some (n : Int) := by
  have hsign : decide ((n : Int) < 0) = false := by simp
  rw [ofInt, hsign, Int.natAbs_natCast]
  exact toInt?_ofRatio_of_lt h

/-- A text of digits is rounded like the natural number it denotes, or is far too large. -/
theorem ofDecimal_natural (n : Nat) : ofDecimal false n 0 = ofRatio false n 1
    ∨ 2 ^ 53 ≤ n ∧ ofDecimal false n 0 = infinite false := by
  by_cases hn : n = 0
  · subst hn
    exact .inl rfl
  · have hsmall : ¬ (n = 0 ∨ ((Nat.toDigits 10 n).length : Int) + 0 < -330) := by omega
    rw [ofDecimal]
    simp only [if_neg hsmall]
    by_cases hlarge : (320 : Int) < ((Nat.toDigits 10 n).length : Int) + 0
    · right
      rw [if_pos hlarge]
      refine ⟨Nat.not_lt.mp fun hlt => ?_, rfl⟩
      have hlength := Nat.toDigits_length 10 n 16 (by decide) (Nat.lt_trans hlt (by decide))
      omega
    · left
      rw [if_neg hlarge]
      have hpower : power 10 0 = 1 := rfl
      rw [Int.neg_zero, hpower, Nat.mul_one]

/-- A number up to `2 ^ 53 - 1` that digits are read as is what the digits denote. -/
theorem toInt?_ofDecimal_iff {n : Nat} {k : Int} (hk : k < 2 ^ 53) :
    (ofDecimal false n 0).toInt? = some k ↔ (n : Int) = k := by
  constructor
  · intro hvalue
    rcases ofDecimal_natural n with hratio | ⟨-, hinfinite⟩
    · rw [hratio] at hvalue
      rcases Nat.lt_or_ge n (2 ^ 53) with hlt | hge
      · rw [toInt?_ofRatio_of_lt hlt] at hvalue
        exact Option.some.inj hvalue
      · have hlarge := le_of_toInt?_ofRatio hge hvalue
        omega
    · rw [hinfinite] at hvalue
      cases hvalue
  · rintro rfl
    have hlt : n < 2 ^ 53 := by omega
    rcases ofDecimal_natural n with hratio | ⟨hge, -⟩
    · rw [hratio, toInt?_ofRatio_of_lt hlt]
    · omega

end JadeEditor.Number
