import FrigateXdna.Python.Float
import Mathlib.Algebra.Order.Field.Power
import Mathlib.Algebra.Order.Field.Rat
import Mathlib.Tactic.FieldSimp
import Mathlib.Tactic.Linarith

/-!
# Rounding to binary64

What the integer arithmetic of {lit}`roundBinary` computes, stated over the rational
numbers: the value depends on the fraction alone, and a fraction close enough to a binary64
value is rounded to it.

Main results:

- Theorem {lit}`roundBinary_congr`: equal fractions have the same nearest value.
- Theorem {lit}`roundBinary_near`: a fraction near a binary64 value is rounded to it.
-/

namespace FrigateXdna
namespace Python

/-! ## Nearest integers -/

/-- A common factor does not change the nearest integer. -/
theorem divRoundEven_mul (num den : Nat) {c : Nat} (hc : 0 < c) :
    divRoundEven (num * c) (den * c) = divRoundEven num den := by
  have hlow : 2 * (num % den * c) < den * c ↔ 2 * (num % den) < den := by
    rw [← Nat.mul_assoc, Nat.mul_lt_mul_right hc]
  have hhigh : den * c < 2 * (num % den * c) ↔ den < 2 * (num % den) := by
    rw [← Nat.mul_assoc, Nat.mul_lt_mul_right hc]
  simp only [divRoundEven, Nat.mul_div_mul_right num den hc, Nat.mul_mod_mul_right, hlow, hhigh]

/-- Equal fractions have the same nearest integer. -/
theorem divRoundEven_congr {num den num' den' : Nat} (hden : 0 < den) (hden' : 0 < den')
    (h : (num : ℚ) / den = num' / den') : divRoundEven num den = divRoundEven num' den' := by
  have hcross : num * den' = num' * den := by
    have hq : (num : ℚ) * den' = num' * den := by
      rwa [div_eq_div_iff (by positivity) (by positivity)] at h
    exact_mod_cast hq
  rw [← divRoundEven_mul num den hden', hcross, Nat.mul_comm den den',
    divRoundEven_mul num' den' hden]

/-- The nearest integer is at most half away. -/
theorem divRoundEven_bounds (num : Nat) {den : Nat} (hden : 0 < den) :
    2 * num ≤ 2 * (den * divRoundEven num den) + den ∧
      2 * (den * divRoundEven num den) ≤ 2 * num + den := by
  have hsplit := Nat.div_add_mod num den
  have hlt := Nat.mod_lt num hden
  unfold divRoundEven
  dsimp only
  have hstep : den * (num / den + 1) = den * (num / den) + den := Nat.mul_succ _ _
  split_ifs <;> (try rw [hstep]) <;> omega

/-- A fraction less than half away from an integer is rounded to it. -/
theorem divRoundEven_near {num den m : Nat} (hden : 0 < den)
    (hlow : (m : ℚ) - 1 / 2 < num / den) (hhigh : (num : ℚ) / den < m + 1 / 2) :
    divRoundEven num den = m := by
  rw [lt_div_iff₀ (by positivity)] at hlow
  rw [div_lt_iff₀ (by positivity)] at hhigh
  have hlow' : 2 * (m * den) < 2 * num + den := by
    have : (2 : ℚ) * (m * den) < 2 * num + den := by linarith
    exact_mod_cast this
  have hhigh' : 2 * num < 2 * (m * den) + den := by
    have : (2 : ℚ) * num < 2 * (m * den) + den := by linarith
    exact_mod_cast this
  obtain ⟨hb₁, hb₂⟩ := divRoundEven_bounds num hden
  have hlt : den * divRoundEven num den < den * (m + 1) := by
    rw [Nat.mul_succ, Nat.mul_comm den m]
    omega
  have hgt : den * m < den * (divRoundEven num den + 1) := by
    rw [Nat.mul_succ, Nat.mul_comm den m]
    omega
  have h₁ := Nat.lt_of_mul_lt_mul_left hlt
  have h₂ := Nat.lt_of_mul_lt_mul_left hgt
  omega

/-! ## Scaling by powers of two -/

theorem scaleBin_den_pos (num : Nat) {den : Nat} (hden : 0 < den) (exp : Int) :
    0 < (scaleBin num den exp).2 := by
  unfold scaleBin
  split
  · positivity
  · exact hden

/-- Scaling divides by a power of two. -/
theorem scaleBin_value (num den : Nat) (exp : Int) :
    ((scaleBin num den exp).1 : ℚ) / (scaleBin num den exp).2 = (num : ℚ) / den / 2 ^ exp := by
  unfold scaleBin
  by_cases h : 0 ≤ exp
  · obtain ⟨k, rfl⟩ := Int.eq_ofNat_of_zero_le h
    rw [if_pos h]
    simp [div_div]
  · obtain ⟨k, rfl⟩ : ∃ k : Nat, exp = -(k : Int) := ⟨(-exp).toNat, by omega⟩
    rw [if_neg h]
    simp [div_eq_mul_inv, mul_right_comm]

/-! ## The binade of a fraction -/

/-- Multiplication by an integer power of two. -/
theorem two_zpow_add (a b : Int) : (2 : ℚ) ^ (a + b) = 2 ^ a * 2 ^ b :=
  zpow_add₀ (by norm_num) a b

/-- The binary logarithm bounds a number from both sides. -/
theorem log2_bounds {n : Nat} (h : 0 < n) :
    (2 : ℚ) ^ (n.log2 : Int) ≤ n ∧ (n : ℚ) < 2 ^ ((n.log2 : Int) + 1) := by
  constructor
  · have hle := Nat.log2_self_le (Nat.ne_of_gt h)
    rw [zpow_natCast]
    exact_mod_cast hle
  · have hlt := Nat.lt_log2_self (n := n)
    have hcast : ((n.log2 : Int) + 1) = ((n.log2 + 1 : Nat) : Int) := by push_cast; rfl
    rw [hcast, zpow_natCast]
    exact_mod_cast hlt

/-- The logarithms of numerator and denominator bound a fraction. -/
theorem fraction_bounds {num den : Nat} (hnum : 0 < num) (hden : 0 < den) :
    (2 : ℚ) ^ ((num.log2 : Int) - den.log2 - 1) < num / den ∧
      (num : ℚ) / den < 2 ^ ((num.log2 : Int) - den.log2 + 1) := by
  obtain ⟨hn₁, hn₂⟩ := log2_bounds hnum
  obtain ⟨hd₁, hd₂⟩ := log2_bounds hden
  have hpos : (0 : ℚ) < den := by positivity
  constructor
  · rw [lt_div_iff₀ hpos]
    have hsplit : (2 : ℚ) ^ (num.log2 : Int) =
        2 ^ ((num.log2 : Int) - den.log2 - 1) * 2 ^ ((den.log2 : Int) + 1) := by
      rw [← two_zpow_add]
      congr 1
      omega
    have hmul := mul_lt_mul_of_pos_left hd₂
      (by positivity : (0 : ℚ) < 2 ^ ((num.log2 : Int) - den.log2 - 1))
    rw [← hsplit] at hmul
    exact lt_of_lt_of_le hmul hn₁
  · rw [div_lt_iff₀ hpos]
    have hsplit : (2 : ℚ) ^ ((num.log2 : Int) + 1) =
        2 ^ ((num.log2 : Int) - den.log2 + 1) * 2 ^ (den.log2 : Int) := by
      rw [← two_zpow_add]
      congr 1
      omega
    have hmul := mul_le_mul_of_nonneg_left hd₁
      (by positivity : (0 : ℚ) ≤ 2 ^ ((num.log2 : Int) - den.log2 + 1))
    rw [← hsplit] at hmul
    exact lt_of_lt_of_le hn₂ hmul

/-- A fraction lies in the binade it is fitted to. -/
theorem fittedExp_bounds {num den : Nat} (hnum : 0 < num) (hden : 0 < den) :
    (2 : ℚ) ^ (52 + fittedExp num den) ≤ num / den ∧
      (num : ℚ) / den < 2 ^ (53 + fittedExp num den) := by
  obtain ⟨hlow, hhigh⟩ := fraction_bounds hnum hden
  set guess : Int := (num.log2 : Int) - den.log2 - 52 with hguess
  have hvalue := scaleBin_value num den guess
  have hscaled : (0 : ℚ) < (scaleBin num den guess).2 := by
    have := scaleBin_den_pos num hden guess
    positivity
  have hpow : (0 : ℚ) < 2 ^ guess := by positivity
  have hiff : (scaleBin num den guess).1 < (scaleBin num den guess).2 * 2 ^ 52 ↔
      (num : ℚ) / den < 2 ^ (52 + guess) := by
    have h52 : (2 : ℚ) ^ (52 + guess) = 2 ^ (52 : Nat) * 2 ^ guess := by
      rw [two_zpow_add]
      rfl
    rw [h52, ← div_lt_iff₀ hpow, ← hvalue, div_lt_iff₀ hscaled, mul_comm (2 ^ 52 : ℚ)]
    exact_mod_cast Iff.rfl
  have hfitted : fittedExp num den =
      if (num : ℚ) / den < 2 ^ (52 + guess) then guess - 1 else guess := by
    unfold fittedExp
    dsimp only
    rw [← hguess]
    simp only [hiff]
  rw [hfitted]
  by_cases h : (num : ℚ) / den < 2 ^ (52 + guess)
  · rw [if_pos h]
    have h₁ : (num.log2 : Int) - den.log2 - 1 = 52 + (guess - 1) := by omega
    have h₂ : 52 + guess = 53 + (guess - 1) := by omega
    rw [h₁] at hlow
    rw [h₂] at h
    exact ⟨le_of_lt hlow, h⟩
  · rw [if_neg h]
    have h₂ : (num.log2 : Int) - den.log2 + 1 = 53 + guess := by omega
    rw [h₂] at hhigh
    exact ⟨not_lt.mp h, hhigh⟩

/-- A fraction is fitted to the binade it lies in. -/
theorem fittedExp_eq {num den : Nat} (hnum : 0 < num) (hden : 0 < den) {e : Int}
    (hlow : (2 : ℚ) ^ (52 + e) ≤ num / den) (hhigh : (num : ℚ) / den < 2 ^ (53 + e)) :
    fittedExp num den = e := by
  obtain ⟨hf₁, hf₂⟩ := fittedExp_bounds hnum hden
  have h₁ := (zpow_lt_zpow_iff_right₀ (by norm_num : (1 : ℚ) < 2)).mp (lt_of_le_of_lt hlow hf₂)
  have h₂ := (zpow_lt_zpow_iff_right₀ (by norm_num : (1 : ℚ) < 2)).mp (lt_of_le_of_lt hf₁ hhigh)
  omega

/-! ## Nearest binary64 values -/

theorem roundBinary_eq (neg : Bool) (num den : Nat) :
    roundBinary neg num den =
      packBinary neg
        (divRoundEven (scaleBin num den (max (fittedExp num den) (-1074))).1
          (scaleBin num den (max (fittedExp num den) (-1074))).2)
        (max (fittedExp num den) (-1074)) :=
  rfl

/-- **Equal fractions have the same nearest value.** -/
theorem roundBinary_congr (neg : Bool) {num den num' den' : Nat} (hnum : 0 < num)
    (hden : 0 < den) (hnum' : 0 < num') (hden' : 0 < den')
    (h : (num : ℚ) / den = num' / den') :
    roundBinary neg num den = roundBinary neg num' den' := by
  have hfitted : fittedExp num den = fittedExp num' den' := by
    obtain ⟨hlow, hhigh⟩ := fittedExp_bounds hnum' hden'
    rw [← h] at hlow hhigh
    exact fittedExp_eq hnum hden hlow hhigh
  rw [roundBinary_eq, roundBinary_eq, hfitted]
  congr 1
  apply divRoundEven_congr (scaleBin_den_pos num hden _) (scaleBin_den_pos num' hden' _)
  rw [scaleBin_value, scaleBin_value, h]

/-- A finite binary64 value: zero, a normal number or a subnormal one. -/
def IsBinary64 (mant : Nat) (exp : Int) : Prop :=
  mant = 0 ∧ exp = 0 ∨
    2 ^ 52 ≤ mant ∧ mant < 2 ^ 53 ∧ -1074 ≤ exp ∧ exp ≤ 971 ∨
    0 < mant ∧ mant < 2 ^ 52 ∧ exp = -1074

/-- Scaled to its exponent, a nearby fraction has the mantissa as its nearest integer. -/
theorem divRoundEven_scaleBin {num den : Nat} (hden : 0 < den) {m : Nat} {e : Int}
    (hlow : ((m : ℚ) - 1 / 2) * 2 ^ e < num / den)
    (hhigh : (num : ℚ) / den < (m + 1 / 2) * 2 ^ e) :
    divRoundEven (scaleBin num den e).1 (scaleBin num den e).2 = m := by
  have hpow : (0 : ℚ) < 2 ^ e := by positivity
  apply divRoundEven_near (scaleBin_den_pos num hden e)
  · rwa [scaleBin_value, lt_div_iff₀ hpow]
  · rwa [scaleBin_value, div_lt_iff₀ hpow]

/-- **A fraction near a binary64 value is rounded to it.**  Below a power of two the values
are twice as dense, so there the fraction has to be twice as close. -/
theorem roundBinary_near (neg : Bool) {num den : Nat} (hnum : 0 < num) (hden : 0 < den) {m : Nat}
    {e : Int} (hm : 0 < m) (hbinary : IsBinary64 m e)
    (hlow : ((m : ℚ) - (if m = 2 ^ 52 then 1 / 4 else 1 / 2)) * 2 ^ e < num / den)
    (hhigh : (num : ℚ) / den < (m + 1 / 2) * 2 ^ e) :
    roundBinary neg num den = .finite neg m e := by
  have hpow : (0 : ℚ) < 2 ^ e := by positivity
  have hbounds : m < 2 ^ 53 ∧ -1074 ≤ e ∧ e ≤ 971 := by
    rcases hbinary with h | h | h <;> omega
  have hhalf : ((m : ℚ) - 1 / 2) * 2 ^ e < num / den := by
    refine lt_of_le_of_lt (mul_le_mul_of_nonneg_right ?_ hpow.le) hlow
    split <;> linarith
  have hsame : max (fittedExp num den) (-1074) = e →
      roundBinary neg num den = .finite neg m e := by
    intro hexp
    rw [roundBinary_eq, hexp, divRoundEven_scaleBin hden hhalf hhigh]
    have h53 : m ≠ 2 ^ 53 := by omega
    have h971 : ¬ 971 < e := by omega
    simp only [packBinary, h53, h971, if_false]
  have htop : (num : ℚ) / den < 2 ^ (53 + e) := by
    have hle : (m : ℚ) + 1 / 2 ≤ 2 ^ (53 : Nat) := by
      have hmle : (m : ℚ) + 1 ≤ 2 ^ (53 : Nat) := by exact_mod_cast hbounds.1
      linarith
    have h53 : (2 : ℚ) ^ (53 + e) = 2 ^ (53 : Nat) * 2 ^ e := by
      rw [two_zpow_add]
      rfl
    rw [h53]
    exact lt_of_lt_of_le hhigh (mul_le_mul_of_nonneg_right hle hpow.le)
  have h52 : (2 : ℚ) ^ (52 + e) = 2 ^ (52 : Nat) * 2 ^ e := by
    rw [two_zpow_add]
    rfl
  by_cases hbelow : (2 : ℚ) ^ (52 + e) ≤ num / den
  · apply hsame
    rw [fittedExp_eq hnum hden hbelow htop]
    omega
  · have hlt := not_le.mp hbelow
    by_cases hmin : e = -1074
    · apply hsame
      obtain ⟨hf, -⟩ := fittedExp_bounds hnum hden
      have h := (zpow_lt_zpow_iff_right₀ (by norm_num : (1 : ℚ) < 2)).mp (lt_of_le_of_lt hf hlt)
      omega
    · -- Only the least mantissa has fractions near it in the binade below.
      have hm52 : m = 2 ^ 52 := by
        by_contra hne
        have hge : 2 ^ 52 + 1 ≤ m := by
          rcases hbinary with h | h | h <;> omega
        have hgeq : (2 : ℚ) ^ (52 : Nat) + 1 ≤ m := by exact_mod_cast hge
        rw [if_neg hne] at hlow
        rw [h52] at hlt
        have hmul : (2 : ℚ) ^ (52 : Nat) * 2 ^ e ≤ ((m : ℚ) - 1 / 2) * 2 ^ e :=
          mul_le_mul_of_nonneg_right (by linarith) hpow.le
        linarith
      subst hm52
      rw [if_pos rfl] at hlow
      have hhalfpow : (2 : ℚ) ^ e = 2 * 2 ^ (e - 1) := by
        have h := two_zpow_add 1 (e - 1)
        rw [zpow_one] at h
        rw [← h]
        congr 1
        omega
      have hpow' : (0 : ℚ) < 2 ^ (e - 1) := by positivity
      have hfit : fittedExp num den = e - 1 := by
        apply fittedExp_eq hnum hden
        · have h := two_zpow_add 52 (e - 1)
          rw [h]
          rw [hhalfpow] at hlow
          push_cast at hlow
          have hnorm : (2 : ℚ) ^ (52 : Int) = 4503599627370496 := by norm_num
          rw [hnorm]
          norm_num at hlow
          linarith
        · have h : (53 : Int) + (e - 1) = 52 + e := by omega
          rwa [h]
      have hexp : max (fittedExp num den) (-1074) = e - 1 := by
        rw [hfit]
        omega
      have hmant : divRoundEven (scaleBin num den (e - 1)).1 (scaleBin num den (e - 1)).2 =
          2 ^ 53 := by
        apply divRoundEven_scaleBin hden
        · rw [hhalfpow] at hlow
          push_cast at hlow ⊢
          norm_num at hlow ⊢
          linarith
        · rw [h52, hhalfpow] at hlt
          push_cast
          norm_num at hlt ⊢
          linarith
      have h970 : ¬ 970 < e - 1 := by omega
      have hback : e - 1 + 1 = e := by omega
      rw [roundBinary_eq, hexp, hmant]
      simp only [packBinary, if_true, hback, h970, if_false]

end Python
end FrigateXdna
