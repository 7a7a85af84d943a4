import Mathlib.Tactic.Ring
import FrigateXdna.Python.Rounding
import FrigateXdna.Python.Scan

/-!
# Printed floats read back

A float is printed with the fewest digits that read back as the same value, and laid out
with a point or an exponent.  Seventeen digits always do, and the three layouts spell the
same decimal number, so {lit}`json` reads back the float that it printed.

Main results:

- Theorem {lit}`ofDecimal_shift`: zeros at the end of a decimal literal do not count.
- Theorem {lit}`decimalPoint_spec`: where the first digit stands.
- Theorem {lit}`seventeen_digits`: seventeen digits read back.
- Theorem {lit}`scanAtom_repr`: a printed float is scanned.
-/

namespace FrigateXdna
namespace Python

/-! ## Decimal literals -/

theorem ten_zpow_add (a b : Int) : (10 : ℚ) ^ (a + b) = 10 ^ a * 10 ^ b :=
  zpow_add₀ (by norm_num) a b

/-- Comparing powers of ten compares their exponents. -/
theorem ten_zpow_lt {a b : Int} : (10 : ℚ) ^ a < 10 ^ b ↔ a < b :=
  zpow_lt_zpow_iff_right₀ (by norm_num)

/-- The number of digits. -/
theorem natDigits_length_eq {n k : Nat} (hlow : 10 ^ k ≤ n) (hhigh : n < 10 ^ (k + 1)) :
    (natDigits n).length = k + 1 := by
  rw [natDigits, List.length_map]
  have hle := (Nat.length_toDigits_le_iff (by decide) (Nat.succ_pos k)).mpr hhigh
  by_contra hne
  have hlt : (Nat.toDigits 10 n).length ≤ k := by omega
  cases k with
  | zero =>
      have := List.length_pos_of_ne_nil (Nat.toDigits_ne_nil (b := 10) (n := n))
      omega
  | succ k =>
      have := (Nat.length_toDigits_le_iff (by decide) (Nat.succ_pos k)).mp hlt
      omega

/-- A positive number lies between the powers of ten that its digits count. -/
theorem natDigits_length_bounds {n : Nat} (hn : 0 < n) :
    10 ^ ((natDigits n).length - 1) ≤ n ∧ n < 10 ^ (natDigits n).length := by
  have hpos : 0 < (natDigits n).length := List.length_pos_of_ne_nil (natDigits_ne_nil n)
  obtain ⟨k, hk⟩ : ∃ k, (natDigits n).length = k + 1 := ⟨(natDigits n).length - 1, by omega⟩
  have hlen : (Nat.toDigits 10 n).length = k + 1 := by
    rw [← hk, natDigits, List.length_map]
  rw [hk, Nat.add_sub_cancel]
  refine ⟨?_, (Nat.length_toDigits_le_iff (by decide) (Nat.succ_pos k)).mp hlen.le⟩
  cases k with
  | zero => exact hn
  | succ k =>
      by_contra hlt
      have := (Nat.length_toDigits_le_iff (by decide) (Nat.succ_pos k)).mpr (not_le.mp hlt)
      omega

/-- Zeros at the end are digits. -/
theorem natDigits_length_mul {n : Nat} (hn : 0 < n) (k : Nat) :
    (natDigits (n * 10 ^ k)).length = (natDigits n).length + k := by
  have hpos : 0 < (natDigits n).length := List.length_pos_of_ne_nil (natDigits_ne_nil n)
  obtain ⟨hlow, hhigh⟩ := natDigits_length_bounds hn
  obtain ⟨l, hl⟩ : ∃ l, (natDigits n).length = l + 1 := ⟨(natDigits n).length - 1, by omega⟩
  rw [hl] at hlow hhigh ⊢
  have h10 : 0 < 10 ^ k := Nat.pow_pos (by decide)
  rw [show l + 1 + k = (l + k) + 1 by omega]
  refine natDigits_length_eq ?_ ?_
  · rw [Nat.pow_add]
    exact Nat.mul_le_mul_right _ hlow
  · rw [show l + k + 1 = (l + 1) + k by omega, Nat.pow_add]
    exact Nat.mul_lt_mul_of_pos_right hhigh h10

/-- The fraction that a decimal literal stands for. -/
theorem ofDecimal_fraction (neg : Bool) {d : Nat} (hd : 0 < d) {e : Int}
    (hhigh : ((natDigits d).length : Int) + e ≤ 310)
    (hlow : -330 ≤ ((natDigits d).length : Int) + e) :
    ∃ num den : Nat, 0 < num ∧ 0 < den ∧ (num : ℚ) / den = d * 10 ^ e ∧
      PyFloat.ofDecimal neg d e = roundBinary neg num den := by
  have hlen : (natDigits d).length = (Nat.toDigits 10 d).length := List.length_map _
  rw [hlen] at hhigh hlow
  unfold PyFloat.ofDecimal
  dsimp only
  rw [if_neg (Nat.ne_of_gt hd), if_neg (not_lt.mpr hhigh), if_neg (not_lt.mpr hlow)]
  by_cases he : 0 ≤ e
  · obtain ⟨k, rfl⟩ := Int.eq_ofNat_of_zero_le he
    rw [if_pos he]
    exact ⟨d * 10 ^ k, 1, by positivity, one_pos, by simp, rfl⟩
  · obtain ⟨k, rfl⟩ : ∃ k : Nat, e = -(k : Int) := ⟨(-e).toNat, by omega⟩
    rw [if_neg he]
    refine ⟨d, 10 ^ k, hd, by positivity, ?_, ?_⟩
    · simp [div_eq_mul_inv]
    · rw [neg_neg, Int.toNat_natCast]

/-- **Zeros at the end of a decimal literal do not count.** -/
theorem ofDecimal_shift (neg : Bool) (d k : Nat) (e : Int) :
    PyFloat.ofDecimal neg (d * 10 ^ k) (e - k) = PyFloat.ofDecimal neg d e := by
  rcases Nat.eq_zero_or_pos d with rfl | hd
  · simp [PyFloat.ofDecimal]
  · have hd' : 0 < d * 10 ^ k := by positivity
    have hlen := natDigits_length_mul hd k
    have hmag : ((natDigits (d * 10 ^ k)).length : Int) + (e - k) =
        ((natDigits d).length : Int) + e := by
      rw [hlen]
      push_cast
      omega
    by_cases hhigh : ((natDigits d).length : Int) + e ≤ 310
    · by_cases hlow : -330 ≤ ((natDigits d).length : Int) + e
      · obtain ⟨num, den, hnum, hden, hvalue, heq⟩ := ofDecimal_fraction neg hd hhigh hlow
        obtain ⟨num', den', hnum', hden', hvalue', heq'⟩ :=
          ofDecimal_fraction neg hd' (hmag ▸ hhigh) (hmag ▸ hlow)
        rw [heq, heq']
        refine roundBinary_congr neg hnum' hden' hnum hden ?_
        rw [hvalue, hvalue', sub_eq_add_neg, ten_zpow_add, zpow_neg, zpow_natCast]
        push_cast
        field_simp
      · have hlen' : (Nat.toDigits 10 d).length = (natDigits d).length := (List.length_map _).symm
        have hlen'' : (Nat.toDigits 10 (d * 10 ^ k)).length = (natDigits (d * 10 ^ k)).length :=
          (List.length_map _).symm
        unfold PyFloat.ofDecimal
        dsimp only
        rw [hlen', hlen'', hmag, if_neg hd.ne', if_neg hd'.ne', if_neg (not_lt.mpr hhigh),
          if_neg (not_lt.mpr hhigh), if_pos (not_le.mp hlow), if_pos (not_le.mp hlow)]
    · have hlen' : (Nat.toDigits 10 d).length = (natDigits d).length := (List.length_map _).symm
      have hlen'' : (Nat.toDigits 10 (d * 10 ^ k)).length = (natDigits (d * 10 ^ k)).length :=
        (List.length_map _).symm
      unfold PyFloat.ofDecimal
      dsimp only
      rw [hlen', hlen'', hmag, if_neg hd.ne', if_neg hd'.ne', if_pos (not_le.mp hhigh),
        if_pos (not_le.mp hhigh)]

/-! ## The decimal point -/

/-- The decimal point of a fraction, when it is within the tries. -/
theorem decimalPoint_spec {num den : Nat} (hden : 0 < den) {p : Int} (tries : Nat)
    (hlow : (10 : ℚ) ^ (p - 1) ≤ num / den) (hhigh : (num : ℚ) / den < 10 ^ (p + tries)) :
    (10 : ℚ) ^ (decimalPoint num den tries p - 1) ≤ num / den ∧
      (num : ℚ) / den < 10 ^ decimalPoint num den tries p := by
  induction tries generalizing p with
  | zero =>
      rw [decimalPoint]
      exact ⟨hlow, by simpa using hhigh⟩
  | succ tries ih =>
      have hden' : (0 : ℚ) < den := by positivity
      have hbelow : (if 0 ≤ p then decide (num < den * 10 ^ p.toNat)
          else decide (num * 10 ^ (-p).toNat < den)) = true ↔ (num : ℚ) / den < 10 ^ p := by
        rw [div_lt_iff₀ hden']
        by_cases hp : 0 ≤ p
        · obtain ⟨k, rfl⟩ := Int.eq_ofNat_of_zero_le hp
          rw [if_pos hp, decide_eq_true_eq, zpow_natCast, mul_comm (10 ^ k : ℚ)]
          exact_mod_cast Iff.rfl
        · obtain ⟨k, rfl⟩ : ∃ k : Nat, p = -(k : Int) := ⟨(-p).toNat, by omega⟩
          rw [if_neg hp, decide_eq_true_eq, neg_neg, Int.toNat_natCast, zpow_neg, zpow_natCast,
            inv_mul_eq_div, lt_div_iff₀ (by positivity)]
          exact_mod_cast Iff.rfl
      have hstep : decimalPoint num den (tries + 1) p =
          if (if 0 ≤ p then decide (num < den * 10 ^ p.toNat)
            else decide (num * 10 ^ (-p).toNat < den)) = true then p
          else decimalPoint num den tries (p + 1) := rfl
      rw [hstep]
      by_cases h : (num : ℚ) / den < 10 ^ p
      · rw [if_pos (hbelow.mpr h)]
        exact ⟨hlow, h⟩
      · rw [if_neg (mt hbelow.mp h)]
        refine ih ?_ ?_
        · rw [show p + 1 - 1 = p by omega]
          exact not_lt.mp h
        · rwa [show p + 1 + (tries : Int) = p + ((tries + 1 : Nat) : Int) by push_cast; omega]

/-! ## Seventeen digits -/

theorem scaleDec_den_pos (num : Nat) {den : Nat} (hden : 0 < den) (shift : Int) :
    0 < (scaleDec num den shift).2 := by
  unfold scaleDec
  split
  · exact hden
  · positivity

/-- Scaling multiplies by a power of ten. -/
theorem scaleDec_value (num den : Nat) (shift : Int) :
    ((scaleDec num den shift).1 : ℚ) / (scaleDec num den shift).2 =
      (num : ℚ) / den * 10 ^ shift := by
  unfold scaleDec
  by_cases h : 0 ≤ shift
  · obtain ⟨k, rfl⟩ := Int.eq_ofNat_of_zero_le h
    rw [if_pos h]
    simp [div_mul_eq_mul_div]
  · obtain ⟨k, rfl⟩ : ∃ k : Nat, shift = -(k : Int) := ⟨(-shift).toNat, by omega⟩
    rw [if_neg h, neg_neg, Int.toNat_natCast, zpow_neg, zpow_natCast]
    push_cast
    rw [← div_div, div_eq_mul_inv _ ((10 : ℚ) ^ k)]

/-- The nearest integer is at most half away. -/
theorem divRoundEven_half (num : Nat) {den : Nat} (hden : 0 < den) :
    (divRoundEven num den : ℚ) - 1 / 2 ≤ num / den ∧
      (num : ℚ) / den ≤ divRoundEven num den + 1 / 2 := by
  obtain ⟨hhigh, hlow⟩ := divRoundEven_bounds num hden
  have hden' : (0 : ℚ) < den := by positivity
  have hhigh' : (2 : ℚ) * num ≤ 2 * (den * divRoundEven num den) + den := by exact_mod_cast hhigh
  have hlow' : (2 : ℚ) * (den * divRoundEven num den) ≤ 2 * num + den := by exact_mod_cast hlow
  constructor
  · rw [le_div_iff₀ hden']
    linarith
  · rw [div_le_iff₀ hden']
    linarith

/-- Rounding keeps integer bounds. -/
theorem divRoundEven_between {num den a b : Nat} (hden : 0 < den) (hlow : (a : ℚ) ≤ num / den)
    (hhigh : (num : ℚ) / den ≤ b) : a ≤ divRoundEven num den ∧ divRoundEven num den ≤ b := by
  obtain ⟨h₁, h₂⟩ := divRoundEven_half num hden
  constructor
  · have : (a : ℚ) < divRoundEven num den + 1 := by linarith
    exact Nat.lt_succ_iff.mp (by exact_mod_cast this)
  · have : (divRoundEven num den : ℚ) < b + 1 := by linarith
    exact Nat.lt_succ_iff.mp (by exact_mod_cast this)

/-- A float by its value: a binary64 number, an infinity or NaN. -/
def PyFloat.IsValue : PyFloat → Prop
  | .finite _ mant exp => IsBinary64 mant exp
  | _ => True

/-- How small and how large a float is. -/
theorem binary64_bounds {m : Nat} {e : Int} (hm : 0 < m) (h : IsBinary64 m e) :
    (10 : ℚ) ^ (-331 : Int) ≤ m * 2 ^ e ∧ (m : ℚ) * 2 ^ e < 10 ^ (309 : Int) := by
  have hbounds : m < 2 ^ 53 ∧ -1074 ≤ e ∧ e ≤ 971 := by
    rcases h with h | h | h <;> omega
  constructor
  · have hpow : (2 : ℚ) ^ (-1074 : Int) ≤ 2 ^ e :=
      zpow_le_zpow_right₀ (by norm_num) hbounds.2.1
    have hone : (1 : ℚ) ≤ m := by exact_mod_cast hm
    have hnat : 2 ^ 1074 ≤ 10 ^ 331 := by decide +kernel
    have hcast : (2 : ℚ) ^ 1074 ≤ 10 ^ 331 := by exact_mod_cast hnat
    calc (10 : ℚ) ^ (-331 : Int) ≤ 2 ^ (-1074 : Int) := inv_anti₀ (by positivity) hcast
      _ ≤ 2 ^ e := hpow
      _ ≤ m * 2 ^ e := le_mul_of_one_le_left (by positivity) hone
  · have hpow : (2 : ℚ) ^ e ≤ 2 ^ (971 : Int) := zpow_le_zpow_right₀ (by norm_num) hbounds.2.2
    have hmant : (m : ℚ) < 2 ^ (53 : Nat) := by exact_mod_cast hbounds.1
    have hnat : 2 ^ 53 * 2 ^ 971 < 10 ^ 309 := by decide +kernel
    have hcast : (2 : ℚ) ^ 53 * 2 ^ 971 < 10 ^ 309 := by exact_mod_cast hnat
    calc (m : ℚ) * 2 ^ e ≤ m * 2 ^ (971 : Int) := by gcongr
      _ < 2 ^ (53 : Nat) * 2 ^ (971 : Int) := by gcongr
      _ < 10 ^ (309 : Int) := hcast

/-- **Seventeen digits read back.** -/
theorem seventeen_digits (neg : Bool) {num den : Nat} (hden : 0 < den) {m : Nat} {e : Int}
    (hm : 0 < m) (hbinary : IsBinary64 m e) (hvalue : (num : ℚ) / den = m * 2 ^ e) {p : Int}
    (hlow : (10 : ℚ) ^ (p - 1) ≤ num / den) (hhigh : (num : ℚ) / den < 10 ^ p) :
    PyFloat.ofDecimal neg
      (divRoundEven (scaleDec num den (17 - p)).1 (scaleDec num den (17 - p)).2) (p - 17) =
        .finite neg m e := by
  set d := divRoundEven (scaleDec num den (17 - p)).1 (scaleDec num den (17 - p)).2 with hd
  have hscaled := scaleDec_den_pos num hden (17 - p)
  have hsvalue := scaleDec_value num den (17 - p)
  have hten : (0 : ℚ) < 10 ^ (17 - p) := by positivity
  -- the digits are between 10 ^ 16 and 10 ^ 17
  have h16 : (10 : ℚ) ^ (p - 1) * 10 ^ (17 - p) = ((10 ^ 16 : Nat) : ℚ) := by
    rw [← ten_zpow_add, show p - 1 + (17 - p) = ((16 : Nat) : Int) by push_cast; omega,
      zpow_natCast]
    norm_num
  have h17 : (10 : ℚ) ^ p * 10 ^ (17 - p) = ((10 ^ 17 : Nat) : ℚ) := by
    rw [← ten_zpow_add, show p + (17 - p) = ((17 : Nat) : Int) by push_cast; omega,
      zpow_natCast]
    norm_num
  obtain ⟨hd₁, hd₂⟩ : 10 ^ 16 ≤ d ∧ d ≤ 10 ^ 17 := by
    refine divRoundEven_between hscaled ?_ ?_
    · rw [hsvalue, ← h16]
      exact mul_le_mul_of_nonneg_right hlow hten.le
    · rw [hsvalue, ← h17]
      exact mul_le_mul_of_nonneg_right hhigh.le hten.le
  have hdpos : 0 < d := lt_of_lt_of_le (by norm_num) hd₁
  have hlen : 17 ≤ (natDigits d).length ∧ (natDigits d).length ≤ 18 := by
    obtain ⟨hb₁, hb₂⟩ := natDigits_length_bounds hdpos
    constructor
    · by_contra hlt
      have hle : 10 ^ (natDigits d).length ≤ 10 ^ 16 :=
        Nat.pow_le_pow_right (by decide) (by omega)
      omega
    · by_contra hlt
      have hle : 10 ^ 18 ≤ 10 ^ ((natDigits d).length - 1) :=
        Nat.pow_le_pow_right (by decide) (by omega)
      omega
  obtain ⟨hsmall, hlarge⟩ := binary64_bounds hm hbinary
  rw [hvalue] at hlow hhigh
  have hp₁ : p - 1 < 309 := ten_zpow_lt.mp (lt_of_le_of_lt hlow hlarge)
  have hp₂ : -331 < p := ten_zpow_lt.mp (lt_of_le_of_lt hsmall hhigh)
  obtain ⟨N, D, hN, hD, hND, heq⟩ := ofDecimal_fraction neg hdpos (e := p - 17)
    (by omega) (by omega)
  rw [heq]
  -- the decimal value is closer to the float than half its gaps
  obtain ⟨hhalf₁, hhalf₂⟩ := divRoundEven_half (scaleDec num den (17 - p)).1 hscaled
  rw [hsvalue, ← hd, hvalue] at hhalf₁ hhalf₂
  have hunit : (10 : ℚ) ^ (17 - p) * 10 ^ (p - 17) = 1 := by
    rw [← ten_zpow_add, show 17 - p + (p - 17) = 0 by omega, zpow_zero]
  have hulp : (10 : ℚ) ^ (p - 17) * 10 ^ 16 ≤ m * 2 ^ e := by
    refine le_trans (le_of_eq ?_) hlow
    rw [show p - 1 = p - 17 + ((16 : Nat) : Int) by push_cast; omega, ten_zpow_add, zpow_natCast]
  have hpow : (0 : ℚ) < 2 ^ e := by positivity
  have hunitpos : (0 : ℚ) < 10 ^ (p - 17) := by positivity
  have hupper : (d : ℚ) * 10 ^ (p - 17) ≤ m * 2 ^ e + 10 ^ (p - 17) / 2 := by
    have := mul_le_mul_of_nonneg_right hhalf₁ hunitpos.le
    rw [mul_assoc _ ((10 : ℚ) ^ (17 - p)), hunit] at this
    linarith
  have hlower : (m : ℚ) * 2 ^ e - 10 ^ (p - 17) / 2 ≤ d * 10 ^ (p - 17) := by
    have := mul_le_mul_of_nonneg_right hhalf₂ hunitpos.le
    rw [mul_assoc _ ((10 : ℚ) ^ (17 - p)), hunit] at this
    linarith
  have hmant : m < 2 ^ 53 := by
    rcases hbinary with h | h | h <;> omega
  have hmant' : (m : ℚ) * 2 ^ e ≤ 9007199254740992 * 2 ^ e := by
    have : (m : ℚ) ≤ 9007199254740992 := by exact_mod_cast hmant.le
    exact mul_le_mul_of_nonneg_right this hpow.le
  refine roundBinary_near neg hN hD hm hbinary ?_ ?_
  · rw [hND]
    refine lt_of_lt_of_le ?_ hlower
    split
    · rename_i h52
      subst h52
      push_cast at hulp ⊢
      norm_num at hulp ⊢
      linarith
    · linarith
  · rw [hND]
    refine lt_of_le_of_lt hupper ?_
    linarith

/-! ## The shortest digits -/

/-- Digits with a decimal point that read back as the nearest value of a fraction. -/
def ReadsBack (neg : Bool) (num den : Nat) (r : Nat × Int) : Prop :=
  0 < r.1 ∧ PyFloat.ofDecimal neg r.1 (r.2 - (natDigits r.1).length) = roundBinary neg num den

/-- A placed candidate reads back when the candidate does. -/
theorem readsBack_place {neg : Bool} {num den d width : Nat} {p : Int} (hwidth : 1 ≤ width)
    (hlow : 10 ^ (width - 1) ≤ d) (hhigh : d ≤ 10 ^ width)
    (hback : PyFloat.ofDecimal neg d (-((width : Int) - p)) = roundBinary neg num den) :
    ReadsBack neg num den (if d = 10 ^ width then (1, p + 1) else (d, p)) := by
  split
  · rename_i hfull
    refine ⟨Nat.one_pos, ?_⟩
    have hone : ((natDigits 1).length : Int) = 1 := rfl
    have hshift := ofDecimal_shift neg 1 width p
    rw [Nat.one_mul, ← hfull, show p - (width : Int) = -((width : Int) - p) by omega,
      hback] at hshift
    dsimp only
    rw [hone, show p + 1 - 1 = p by omega]
    exact hshift.symm
  · rename_i hnotfull
    have hpos : 0 < d := lt_of_lt_of_le (Nat.pow_pos (by decide)) hlow
    refine ⟨hpos, ?_⟩
    have hlen : (natDigits d).length = width - 1 + 1 :=
      natDigits_length_eq hlow (by rw [Nat.sub_add_cancel hwidth]; omega)
    dsimp only
    rw [hlen, Nat.sub_add_cancel hwidth, show p - (width : Int) = -((width : Int) - p) by omega]
    exact hback

/-- The two neighbours of a scaled fraction have as many digits as they should. -/
theorem neighbours_bounds {num den width : Nat} (hden : 0 < den)
    (hlow : ((10 ^ (width - 1) : Nat) : ℚ) ≤ num / den)
    (hhigh : (num : ℚ) / den < ((10 ^ width : Nat) : ℚ)) :
    (10 ^ (width - 1) ≤ divRoundEven num den ∧ divRoundEven num den ≤ 10 ^ width) ∧
      10 ^ (width - 1) ≤ (if divRoundEven num den * den ≤ num then divRoundEven num den + 1
        else divRoundEven num den - 1) ∧
      (if divRoundEven num den * den ≤ num then divRoundEven num den + 1
        else divRoundEven num den - 1) ≤ 10 ^ width := by
  have hden' : (0 : ℚ) < den := by positivity
  obtain ⟨hnear₁, hnear₂⟩ := divRoundEven_between hden hlow hhigh.le
  refine ⟨⟨hnear₁, hnear₂⟩, ?_⟩
  split
  · rename_i hbelow
    have hlt : divRoundEven num den < 10 ^ width := by
      have : (divRoundEven num den : ℚ) ≤ num / den := by
        rw [le_div_iff₀ hden']
        exact_mod_cast hbelow
      exact_mod_cast lt_of_le_of_lt this hhigh
    omega
  · rename_i habove
    have hlt : 10 ^ (width - 1) < divRoundEven num den := by
      by_contra hle
      have heq : divRoundEven num den = 10 ^ (width - 1) := by omega
      refine habove ?_
      rw [le_div_iff₀ hden'] at hlow
      rw [heq]
      exact_mod_cast hlow
    omega

/-- One more digit is tried when neither neighbour reads back. -/
theorem shortestDigits_step {neg : Bool} {num den : Nat} (hden : 0 < den) {p : Int}
    (hlow : (10 : ℚ) ^ (p - 1) ≤ num / den) (hhigh : (num : ℚ) / den < 10 ^ p) {tries width : Nat}
    (hwidth : 1 ≤ width)
    (hnext : PyFloat.ofDecimal neg (divRoundEven (scaleDec num den ((width : Int) - p)).1
        (scaleDec num den ((width : Int) - p)).2) (-((width : Int) - p)) ≠
        roundBinary neg num den →
      ReadsBack neg num den (shortestDigits neg num den p tries (width + 1))) :
    ReadsBack neg num den (shortestDigits neg num den p (tries + 1) width) := by
  have hscaled := scaleDec_den_pos num hden ((width : Int) - p)
  have hvalue := scaleDec_value num den ((width : Int) - p)
  have hten : (0 : ℚ) < 10 ^ ((width : Int) - p) := by positivity
  have hw₁ : (10 : ℚ) ^ (p - 1) * 10 ^ ((width : Int) - p) = ((10 ^ (width - 1) : Nat) : ℚ) := by
    rw [← ten_zpow_add, show p - 1 + ((width : Int) - p) = ((width - 1 : Nat) : Int) by omega,
      zpow_natCast]
    push_cast
    rfl
  have hw₂ : (10 : ℚ) ^ p * 10 ^ ((width : Int) - p) = ((10 ^ width : Nat) : ℚ) := by
    rw [← ten_zpow_add, show p + ((width : Int) - p) = (width : Int) by omega, zpow_natCast]
    push_cast
    rfl
  obtain ⟨⟨hnear₁, hnear₂⟩, hfar₁, hfar₂⟩ := neighbours_bounds hscaled
    (by rw [hvalue, ← hw₁]; exact mul_le_mul_of_nonneg_right hlow hten.le)
    (by rw [hvalue, ← hw₂]; exact mul_lt_mul_of_pos_right hhigh hten)
  rw [shortestDigits]
  dsimp only
  generalize divRoundEven (scaleDec num den ((width : Int) - p)).1
    (scaleDec num den ((width : Int) - p)).2 = near at hnear₁ hnear₂ hfar₁ hfar₂ hnext ⊢
  generalize (if near * (scaleDec num den ((width : Int) - p)).2 ≤
    (scaleDec num den ((width : Int) - p)).1 then near + 1 else near - 1) = far at hfar₁ hfar₂ ⊢
  by_cases hback : PyFloat.ofDecimal neg near (-((width : Int) - p)) = roundBinary neg num den
  · simp only [hback, decide_true, if_true]
    exact readsBack_place hwidth hnear₁ hnear₂ hback
  · by_cases hback' : PyFloat.ofDecimal neg far (-((width : Int) - p)) = roundBinary neg num den
    · simp only [hback, hback', decide_true, decide_false, if_true, Bool.false_eq_true, if_false]
      exact readsBack_place hwidth hfar₁ hfar₂ hback'
    · simp only [hback, hback', decide_false, Bool.false_eq_true, if_false]
      exact hnext hback

/-- **The shortest digits read back.** -/
theorem shortestDigits_readsBack {neg : Bool} {num den : Nat} (hden : 0 < den) {p : Int}
    (hlow : (10 : ℚ) ^ (p - 1) ≤ num / den) (hhigh : (num : ℚ) / den < 10 ^ p)
    (hlast : PyFloat.ofDecimal neg
      (divRoundEven (scaleDec num den (17 - p)).1 (scaleDec num den (17 - p)).2) (p - 17) =
        roundBinary neg num den)
    (tries : Nat) {width : Nat} (hwidth : 1 ≤ width) (hsum : width + (tries + 1) = 18) :
    ReadsBack neg num den (shortestDigits neg num den p (tries + 1) width) := by
  induction tries generalizing width with
  | zero =>
      obtain rfl : width = 17 := by omega
      refine shortestDigits_step hden hlow hhigh hwidth fun hne => absurd ?_ hne
      rw [show -(((17 : Nat) : Int) - p) = p - 17 by push_cast; omega]
      exact hlast
  | succ tries ih =>
      exact shortestDigits_step hden hlow hhigh hwidth fun _ => ih (by omega) (by omega)

/-! ## Layouts -/

/-- The number that digits spell. -/
def spelledValue (digits : PyStr) : Nat :=
  digits.foldl (fun value c => 10 * value + (c - 48)) 0

/-- A digit. -/
def IsDigit (c : Nat) : Prop :=
  48 ≤ c ∧ c ≤ 57

theorem foldl_digits (digits : PyStr) (acc : Nat) :
    digits.foldl (fun value c => 10 * value + (c - 48)) acc =
      acc * 10 ^ digits.length + spelledValue digits := by
  unfold spelledValue
  induction digits generalizing acc with
  | nil => simp
  | cons c cs ih =>
      rw [List.foldl_cons, ih, List.foldl_cons, ih (10 * 0 + (c - 48)), List.length_cons,
        Nat.pow_succ]
      ring

theorem spelledValue_append (a b : PyStr) :
    spelledValue (a ++ b) = spelledValue a * 10 ^ b.length + spelledValue b := by
  rw [spelledValue, List.foldl_append, foldl_digits]
  rfl

theorem spelledValue_zeros (k : Nat) : spelledValue (List.replicate k 48) = 0 := by
  induction k with
  | zero => rfl
  | succ k ih =>
      rw [List.replicate_succ, ← List.singleton_append, spelledValue_append, ih]
      simp [spelledValue]

/-- Zeros at the end multiply. -/
theorem spelledValue_append_zeros (a : PyStr) (k : Nat) :
    spelledValue (a ++ List.replicate k 48) = spelledValue a * 10 ^ k := by
  rw [spelledValue_append, spelledValue_zeros, List.length_replicate, Nat.add_zero]

/-- Zeros in front do not count. -/
theorem spelledValue_zeros_append (k : Nat) (a : PyStr) :
    spelledValue (List.replicate k 48 ++ a) = spelledValue a := by
  rw [spelledValue_append, spelledValue_zeros, Nat.zero_mul, Nat.zero_add]

/-- Digits that may be laid out: some, the first not zero. -/
structure Significant (digits : PyStr) : Prop where
  digit : ∀ c ∈ digits, IsDigit c
  first : ∃ c rest, digits = c :: rest ∧ 49 ≤ c ∧ c ≤ 57

/-- Trimming drops zeros at the end. -/
theorem trimZeros_append (digits : PyStr) :
    ∃ k, digits = trimZeros digits ++ List.replicate k 48 := by
  refine ⟨(digits.reverse.takeWhile (· == 48)).length, ?_⟩
  have hzeros : digits.reverse.takeWhile (· == 48) =
      List.replicate (digits.reverse.takeWhile (· == 48)).length 48 := by
    rw [List.eq_replicate_iff]
    refine ⟨rfl, fun c hc => ?_⟩
    simpa using List.all_eq_true.mp List.all_takeWhile c hc
  have hsplit := List.takeWhile_append_dropWhile (p := (· == 48)) (l := digits.reverse)
  have hback := congrArg List.reverse hsplit
  rw [List.reverse_append, List.reverse_reverse] at hback
  rw [trimZeros]
  conv_lhs => rw [← hback]
  rw [hzeros, List.reverse_replicate, List.length_replicate]

/-- The digits of a positive number without the zeros at the end. -/
theorem significant_trimZeros {d : Nat} (hd : 0 < d) :
    Significant (trimZeros (natDigits d)) ∧
      ∃ k, d = spelledValue (trimZeros (natDigits d)) * 10 ^ k ∧
        (natDigits d).length = (trimZeros (natDigits d)).length + k := by
  obtain ⟨k, hk⟩ := trimZeros_append (natDigits d)
  obtain ⟨c, rest, hdigits, hc⟩ := natDigits_head hd
  refine ⟨⟨fun e he => ?_, ?_⟩, k, ?_, ?_⟩
  · refine natDigits_bounds (n := d) ?_
    rw [hk]
    exact List.mem_append_left _ he
  · cases htrim : trimZeros (natDigits d) with
    | nil =>
        rw [htrim, List.nil_append] at hk
        have hmem : c ∈ List.replicate k 48 := hk ▸ hdigits ▸ List.mem_cons_self
        have := List.eq_of_mem_replicate hmem
        omega
    | cons e es =>
        rw [htrim, hdigits, List.cons_append] at hk
        obtain ⟨rfl, -⟩ := List.cons.inj hk
        exact ⟨c, es, rfl, hc⟩
  · rw [← spelledValue_append_zeros, ← hk]
    exact (natDigits_value d).symm
  · conv_lhs => rw [hk]
    rw [List.length_append, List.length_replicate]

theorem Significant.ne_nil {digits : PyStr} (h : Significant digits) : digits ≠ [] := by
  obtain ⟨c, rest, rfl, -⟩ := h.first
  exact List.cons_ne_nil c rest

theorem IsDigit.zeros {k : Nat} : ∀ c ∈ List.replicate k 48, IsDigit c := by
  intro c hc
  obtain rfl := List.eq_of_mem_replicate hc
  exact ⟨Nat.le_refl _, by decide⟩

/-- Digits are scanned with what was scanned before them. -/
theorem scanDigits_value (digits : PyStr) (h : ∀ c ∈ digits, IsDigit c) (tail : PyStr)
    (htail : ∀ c ∈ tail.head?, ¬ (48 ≤ c ∧ c ≤ 57)) (acc count : Nat) :
    scanDigits acc count (digits ++ tail) =
      (acc * 10 ^ digits.length + spelledValue digits, count + digits.length, tail) := by
  rw [scanDigits_append h htail, foldl_digits]

/-- The fraction of a number is scanned. -/
theorem scanFraction_digits (digits : PyStr) (h : ∀ c ∈ digits, IsDigit c) (hne : digits ≠ [])
    (tail : PyStr) (htail : ∀ c ∈ tail.head?, ¬ (48 ≤ c ∧ c ≤ 57)) (whole : Nat) :
    scanFraction whole (46 :: (digits ++ tail)) =
      (whole * 10 ^ digits.length + spelledValue digits, digits.length, tail) := by
  have hlen : digits.length ≠ 0 := by simpa using hne
  simp only [scanFraction, scanDigits_value digits h tail htail, Nat.zero_add, if_neg hlen]

/-- The exponent of a number is scanned. -/
theorem scanExponent_digits {e : Int} {digits tail : PyStr} (hdigits : ∀ c ∈ digits, IsDigit c)
    (hne : digits ≠ []) (hvalue : spelledValue digits = e.natAbs) (htail : EndsNumber tail) :
    scanExponent (101 :: (if e < 0 then 45 else 43) :: (digits ++ tail)) = some (e, tail) := by
  have hlen : digits.length ≠ 0 := by simpa using hne
  by_cases he : e < 0
  · simp [scanExponent, he, scanDigits_value digits hdigits tail htail.not_digit, hvalue, hne,
      abs_of_neg he]
  · simp [scanExponent, he, scanDigits_value digits hdigits tail htail.not_digit, hvalue, hne,
      abs_of_nonneg (not_lt.mp he)]

/-- A number with an exponent is a float. -/
theorem scanNumber_whole_exponent {neg : Bool} {c : Nat} {rest after : PyStr}
    (hc : 49 ≤ c ∧ c ≤ 57) {whole count : Nat}
    (hscan : scanDigits 0 0 (c :: rest) = (whole, count, after)) {digits len : Nat}
    {afterFrac tail : PyStr} (hfrac : scanFraction whole after = (digits, len, afterFrac))
    {e : Int} (hexp : scanExponent afterFrac = some (e, tail)) :
    scanNumber neg (c :: rest) = some (.float (.ofDecimal neg digits (e - len)), tail) := by
  have hne : c ≠ 48 := by omega
  unfold scanNumber
  simp only [hc, and_self, if_true, hscan, hfrac, hexp]

/-- A number with a fraction and no exponent is a float. -/
theorem scanNumber_whole_fraction {neg : Bool} {c : Nat} {rest after : PyStr}
    (hc : 49 ≤ c ∧ c ≤ 57) {whole count : Nat}
    (hscan : scanDigits 0 0 (c :: rest) = (whole, count, after)) {digits len : Nat}
    {afterFrac : PyStr} (hfrac : scanFraction whole after = (digits, len, afterFrac))
    (hexp : scanExponent afterFrac = none) (hlen : len ≠ 0) :
    scanNumber neg (c :: rest) =
      some (.float (.ofDecimal neg digits (-(len : Int))), afterFrac) := by
  have hne : c ≠ 48 := by omega
  unfold scanNumber
  simp only [hc, and_self, if_true, hscan, hfrac, hexp, if_pos hlen]

/-- A number below one is scanned. -/
theorem scanNumber_below_one {digits : PyStr} (h : Significant digits) (k : Nat) {tail : PyStr}
    (htail : EndsNumber tail) (neg : Bool) :
    scanNumber neg (py "0." ++ (List.replicate k 48 ++ digits ++ tail)) =
      some (.float (.ofDecimal neg (spelledValue digits) (-((k + digits.length : Nat) : Int))),
        tail) := by
  have hall : ∀ c ∈ List.replicate k 48 ++ digits, IsDigit c := by
    intro c hc
    rcases List.mem_append.mp hc with hc | hc
    · exact IsDigit.zeros c hc
    · exact h.digit c hc
  have hne : List.replicate k 48 ++ digits ≠ [] := by simp [h.ne_nil]
  have hfrac := scanFraction_digits _ hall hne tail htail.not_digit 0
  rw [Nat.zero_mul, Nat.zero_add, spelledValue_zeros_append, List.length_append,
    List.length_replicate] at hfrac
  have hlen : k + digits.length ≠ 0 := by
    have := List.length_pos_of_ne_nil h.ne_nil
    omega
  have htext : py "0." ++ (List.replicate k 48 ++ digits ++ tail) =
      48 :: 46 :: (List.replicate k 48 ++ digits ++ tail) := rfl
  rw [htext]
  simp only [scanNumber, hfrac, htail.scanExponent, ne_eq, hlen, not_false_eq_true, if_true]

/-- A number with a point is scanned. -/
theorem scanNumber_point {digits frac : PyStr} (h : Significant digits)
    (hfrac : ∀ c ∈ frac, IsDigit c) (hne : frac ≠ []) {tail : PyStr} (htail : EndsNumber tail)
    (neg : Bool) :
    scanNumber neg (digits ++ 46 :: (frac ++ tail)) =
      some (.float (.ofDecimal neg (spelledValue (digits ++ frac)) (-(frac.length : Int))),
        tail) := by
  obtain ⟨c, rest, hdigits, hc⟩ := h.first
  have hscan := scanDigits_value digits h.digit (46 :: (frac ++ tail)) (by simp) 0 0
  have hfraction := scanFraction_digits frac hfrac hne tail htail.not_digit
    (0 * 10 ^ digits.length + spelledValue digits)
  have hlen : frac.length ≠ 0 := by simpa using hne
  rw [hdigits, List.cons_append] at hscan ⊢
  rw [hdigits] at hfraction
  rw [scanNumber_whole_fraction hc hscan hfraction htail.scanExponent hlen]
  rw [Nat.zero_mul, Nat.zero_add, ← spelledValue_append, List.cons_append]

/-- The digits of an exponent. -/
def exponentDigits (e : Int) : PyStr :=
  if (natDigits e.natAbs).length < 2 then 48 :: natDigits e.natAbs else natDigits e.natAbs

theorem exponentDigits_spec (e : Int) :
    (∀ c ∈ exponentDigits e, IsDigit c) ∧ exponentDigits e ≠ [] ∧
      spelledValue (exponentDigits e) = e.natAbs := by
  have hvalue : spelledValue (natDigits e.natAbs) = e.natAbs := natDigits_value e.natAbs
  unfold exponentDigits
  split
  · refine ⟨fun c hc => ?_, List.cons_ne_nil _ _, ?_⟩
    · rcases List.mem_cons.mp hc with rfl | hc
      · exact ⟨Nat.le_refl _, by decide⟩
      · exact natDigits_bounds hc
    · have hzero := spelledValue_zeros_append 1 (natDigits e.natAbs)
      exact hzero.trans hvalue
  · exact ⟨fun c hc => natDigits_bounds hc, natDigits_ne_nil _, hvalue⟩

/-- A number with an exponent is scanned. -/
theorem scanNumber_exponent {digits : PyStr} (h : Significant digits) (e : Int) {tail : PyStr}
    (htail : EndsNumber tail) (neg : Bool) :
    scanNumber neg (digits.take 1 ++ (if digits.length ≤ 1 then [] else 46 :: digits.drop 1) ++
        [101, if e < 0 then 45 else 43] ++ exponentDigits e ++ tail) =
      some (.float (.ofDecimal neg (spelledValue digits) (e - ((digits.length - 1 : Nat) : Int))),
        tail) := by
  obtain ⟨c, rest, rfl, hc⟩ := h.first
  obtain ⟨hdigits, hne, hvalue⟩ := exponentDigits_spec e
  have hexp := scanExponent_digits hdigits hne hvalue htail
  have hone : ∀ more : PyStr, (∀ d ∈ more.head?, ¬ (48 ≤ d ∧ d ≤ 57)) →
      scanDigits 0 0 (c :: more) = (spelledValue [c], 1, more) := by
    intro more hmore
    have hscan := scanDigits_value [c]
      (fun d hd => h.digit d (List.mem_singleton.mp hd ▸ List.mem_cons_self)) more hmore 0 0
    rwa [Nat.zero_mul, Nat.zero_add] at hscan
  cases rest with
  | nil =>
      have hfrac : ∀ more : PyStr,
          scanFraction (spelledValue [c]) (101 :: more) = (spelledValue [c], 0, 101 :: more) :=
        fun _ => rfl
      simp only [List.take_succ_cons, List.take_zero, List.length_singleton, Nat.le_refl, if_true,
        List.append_nil, List.cons_append, List.nil_append]
      rw [scanNumber_whole_exponent hc (hone _ (by simp)) (hfrac _) hexp]
  | cons d ds =>
      have hall : ∀ b ∈ d :: ds, IsDigit b := fun b hb => h.digit b (List.mem_cons_of_mem c hb)
      have hlong : ¬ (c :: d :: ds).length ≤ 1 := by simp
      rw [if_neg hlong]
      simp only [List.take_succ_cons, List.take_zero, List.drop_succ_cons, List.drop_zero,
        List.cons_append, List.nil_append, List.append_assoc]
      have hfrac := scanFraction_digits (d :: ds) hall (List.cons_ne_nil d ds)
        (101 :: (if e < 0 then 45 else 43) :: (exponentDigits e ++ tail)) (by simp)
        (spelledValue [c])
      rw [List.cons_append, ← spelledValue_append] at hfrac
      rw [scanNumber_whole_exponent hc (hone _ (by simp)) hfrac hexp]
      simp

/-- **Laid out digits are scanned.** -/
theorem scanNumber_layoutDigits {digits : PyStr} (h : Significant digits) (p : Int)
    {tail : PyStr} (htail : EndsNumber tail) (neg : Bool) :
    scanNumber neg (layoutDigits digits p ++ tail) =
      some (.float (.ofDecimal neg (spelledValue digits) (p - (digits.length : Int))), tail) := by
  have hpos : 0 < digits.length := List.length_pos_of_ne_nil h.ne_nil
  unfold layoutDigits
  by_cases hplain : -4 < p ∧ p ≤ 16
  · rw [if_pos hplain]
    by_cases hbelow : p ≤ 0
    · rw [if_pos hbelow, List.append_assoc, List.append_assoc, ← List.append_assoc _ digits,
        scanNumber_below_one h _ htail]
      congr 4
      omega
    · rw [if_neg hbelow]
      obtain ⟨k, rfl⟩ : ∃ k : Nat, p = k := ⟨p.toNat, by omega⟩
      simp only [Int.toNat_natCast, List.length_take]
      by_cases hlong : k < digits.length
      · -- the point stands between the digits
        have hmin : min k digits.length = k := by omega
        have hdrop : digits.drop k ≠ [] := by
          simp only [ne_eq, List.drop_eq_nil_iff]
          omega
        have htake : Significant (digits.take k) := by
          refine ⟨fun c hc => h.digit c (List.mem_of_mem_take hc), ?_⟩
          obtain ⟨c, rest, rfl, hc⟩ := h.first
          obtain ⟨j, rfl⟩ : ∃ j, k = j + 1 := ⟨k - 1, by omega⟩
          exact ⟨c, rest.take j, rfl, hc⟩
        rw [hmin, Nat.sub_self, List.replicate_zero, List.append_nil,
          if_neg (by simpa using hdrop), List.append_assoc, List.append_assoc,
          List.singleton_append,
          scanNumber_point htake (fun c hc => h.digit c (List.mem_of_mem_drop hc)) hdrop htail,
          List.take_append_drop, List.length_drop]
        congr 4
        omega
      · -- zeros stand between the digits and the point
        have hmin : min k digits.length = digits.length := by omega
        have htake : digits.take k = digits := List.take_of_length_le (by omega)
        have hdrop : digits.drop k = [] := List.drop_eq_nil_of_le (by omega)
        have hzeros : Significant (digits ++ List.replicate (k - digits.length) 48) := by
          refine ⟨fun c hc => ?_, ?_⟩
          · rcases List.mem_append.mp hc with hc | hc
            · exact h.digit c hc
            · exact IsDigit.zeros c hc
          · obtain ⟨c, rest, hdigits, hc⟩ := h.first
            exact ⟨c, rest ++ List.replicate (k - digits.length) 48, by rw [hdigits]; rfl, hc⟩
        have hfrac : ∀ c ∈ [48], IsDigit c := IsDigit.zeros (k := 1)
        rw [hmin, htake, hdrop, if_pos List.isEmpty_nil, List.append_assoc, List.append_assoc,
          List.singleton_append, scanNumber_point hzeros hfrac (List.cons_ne_nil _ _) htail]
        have hvalue : spelledValue (digits ++ List.replicate (k - digits.length) 48 ++ [48]) =
            spelledValue digits * 10 ^ (k - digits.length + 1) := by
          rw [List.append_assoc, ← List.replicate_succ', spelledValue_append_zeros]
        rw [hvalue, ← ofDecimal_shift neg (spelledValue digits) (k - digits.length + 1)]
        congr 4
        simp only [List.length_singleton]
        omega
  · rw [if_neg hplain]
    have hexp := scanNumber_exponent h (p - 1) htail neg
    unfold exponentDigits at hexp
    rw [hexp]
    congr 4
    omega

/-! ## Printing and reading -/

/-- What the printer lays out starts with a digit. -/
theorem layoutDigits_head {digits : PyStr} (h : Significant digits) (p : Int) :
    ∃ c rest, layoutDigits digits p = c :: rest ∧ IsDigit c := by
  obtain ⟨c, rest, rfl, hc⟩ := h.first
  unfold layoutDigits
  by_cases hplain : -4 < p ∧ p ≤ 16
  · rw [if_pos hplain]
    by_cases hbelow : p ≤ 0
    · rw [if_pos hbelow]
      exact ⟨48, _, rfl, by decide, by decide⟩
    · obtain ⟨k, hk⟩ : ∃ k, p.toNat = k + 1 := ⟨p.toNat - 1, by omega⟩
      rw [if_neg hbelow, hk]
      exact ⟨c, _, rfl, by omega, hc.2⟩
  · rw [if_neg hplain]
    exact ⟨c, _, rfl, by omega, hc.2⟩

/-- The value of a finite float as a fraction. -/
theorem finite_fraction (mant : Nat) (exp : Int) :
    ∃ num den : Nat, (if 0 ≤ exp then (mant * 2 ^ exp.toNat, 1) else (mant, 2 ^ (-exp).toNat)) =
      (num, den) ∧ 0 < den ∧ (num : ℚ) / den = mant * 2 ^ exp := by
  by_cases h : 0 ≤ exp
  · obtain ⟨k, rfl⟩ := Int.eq_ofNat_of_zero_le h
    exact ⟨_, _, if_pos h, Nat.one_pos, by simp⟩
  · obtain ⟨k, rfl⟩ : ∃ k : Nat, exp = -(k : Int) := ⟨(-exp).toNat, by omega⟩
    refine ⟨_, _, if_neg h, by positivity, ?_⟩
    rw [neg_neg, Int.toNat_natCast, zpow_neg, zpow_natCast]
    push_cast
    rfl

/-- How a finite float that is not zero is printed.  What finds its digits is made a variable
in the proof, so that nothing evaluates it. -/
theorem PyFloat.repr_finite (neg : Bool) {mant : Nat} (hm : mant ≠ 0) {exp : Int} {num den : Nat}
    (hfraction : (if 0 ≤ exp then (mant * 2 ^ exp.toNat, 1) else (mant, 2 ^ (-exp).toNat)) =
      (num, den)) {d : Nat} {p : Int}
    (hdigits : shortestDigits neg num den (decimalPoint num den 700 (-330)) 17 1 = (d, p)) :
    (PyFloat.finite neg mant exp).repr =
      (if neg then [45] else []) ++ layoutDigits (trimZeros (natDigits d)) p := by
  unfold PyFloat.repr
  obtain ⟨shortest, hshortest⟩ : ∃ f, shortestDigits = f := ⟨_, rfl⟩
  rw [hshortest] at hdigits ⊢
  simp only [if_neg hm, hfraction, hdigits]

/-- The printed digits of a finite float that is not zero are scanned to its value. -/
theorem scanNumber_finite (neg : Bool) {mant : Nat} {exp : Int} (hm : 0 < mant)
    (hbinary : IsBinary64 mant exp) :
    ∃ c body, (PyFloat.finite neg mant exp).repr = (if neg then [45] else []) ++ c :: body ∧
      IsDigit c ∧ ∀ tail, EndsNumber tail →
        scanNumber neg (c :: body ++ tail) = some (.float (.finite neg mant exp), tail) := by
  obtain ⟨num, den, hfraction, hden, hvalue⟩ := finite_fraction mant exp
  obtain ⟨hsmall, hlarge⟩ := binary64_bounds hm hbinary
  have hpow : (0 : ℚ) < 2 ^ exp := by positivity
  have hmant : (0 : ℚ) < mant := by exact_mod_cast hm
  have hnum : 0 < num := by
    have hpos : (0 : ℚ) < num / den := hvalue ▸ mul_pos hmant hpow
    by_contra hzero
    obtain rfl : num = 0 := by omega
    simp at hpos
  have hround : roundBinary neg num den = .finite neg mant exp := by
    refine roundBinary_near neg hnum hden hm hbinary ?_ ?_
    · rw [hvalue]
      refine mul_lt_mul_of_pos_right ?_ hpow
      split <;> linarith
    · rw [hvalue]
      exact mul_lt_mul_of_pos_right (by linarith) hpow
  rw [← hvalue] at hsmall hlarge
  obtain ⟨hp₁, hp₂⟩ := decimalPoint_spec hden (p := -330) 700 hsmall
    (hlarge.trans (ten_zpow_lt.mpr (by decide)))
  have hlast := (seventeen_digits neg hden hm hbinary hvalue hp₁ hp₂).trans hround.symm
  have hreads := shortestDigits_readsBack hden hp₁ hp₂ hlast 16 (Nat.le_refl 1) rfl
  obtain ⟨⟨d, p⟩, hshort⟩ :
      ∃ r, shortestDigits neg num den (decimalPoint num den 700 (-330)) 17 1 = r := ⟨_, rfl⟩
  rw [hshort, ReadsBack, hround] at hreads
  obtain ⟨hpos, hback⟩ := hreads
  obtain ⟨hsig, k, hdigits, hlen⟩ := significant_trimZeros hpos
  obtain ⟨c, body, hlayout, hc⟩ := layoutDigits_head hsig p
  refine ⟨c, body, ?_, hc, fun tail htail => ?_⟩
  · rw [← hlayout]
    exact PyFloat.repr_finite neg (Nat.ne_of_gt hm) hfraction hshort
  · rw [← hlayout, scanNumber_layoutDigits hsig p htail neg, ← ofDecimal_shift neg _ k, ← hdigits]
    rw [hlen] at hback
    rw [← hback]
    congr 4
    push_cast
    omega

/-- A finite float is printed with a digit first, after its sign, and scanned. -/
theorem finite_repr (neg : Bool) {mant : Nat} {exp : Int} (hbinary : IsBinary64 mant exp) :
    ∃ c body, (PyFloat.finite neg mant exp).repr = (if neg then [45] else []) ++ c :: body ∧
      IsDigit c ∧ ∀ tail, EndsNumber tail →
        scanNumber neg (c :: body ++ tail) = some (.float (.finite neg mant exp), tail) := by
  rcases Nat.eq_zero_or_pos mant with rfl | hm
  · obtain rfl : exp = 0 := by
      rcases hbinary with h | h | h <;> omega
    refine ⟨48, py ".0", rfl, ⟨by decide, by decide⟩, fun tail htail => ?_⟩
    have hfrac := scanFraction_digits [48] (IsDigit.zeros (k := 1))
      (List.cons_ne_nil _ _) tail htail.not_digit 0
    have htext : 48 :: py ".0" ++ tail = 48 :: 46 :: ([48] ++ tail) := rfl
    rw [htext]
    simp only [scanNumber, hfrac, htail.scanExponent]
    rfl
  · exact scanNumber_finite neg hm hbinary

/-- **A printed float is scanned.** -/
theorem scanAtom_repr {x : PyFloat} (hx : x.IsValue) {tail : PyStr} (htail : EndsNumber tail) :
    scanAtom (x.repr ++ tail) = some (.float x, tail) := by
  cases x with
  | nan => rfl
  | inf neg => cases neg <;> rfl
  | finite neg mant exp =>
      obtain ⟨c, body, hrepr, hc, hscan⟩ := finite_repr neg hx
      have hliterals := dropLit?_digit hc (body ++ tail)
      rw [hrepr]
      cases neg with
      | true =>
          have htext : (if true = true then [45] else []) ++ c :: body ++ tail =
              45 :: c :: (body ++ tail) := rfl
          rw [htext, scanAtom_of_literals fun lit hlit => (hliterals lit hlit).2, if_pos rfl]
          exact hscan tail htail
      | false =>
          have hminus : c ≠ 45 := by
            have := hc.1
            omega
          have htext : (if false = true then [45] else []) ++ c :: body ++ tail =
              c :: (body ++ tail) := rfl
          rw [htext, scanAtom_of_literals fun lit hlit => (hliterals lit hlit).1, if_neg hminus]
          exact hscan tail htail

theorem layoutDigits_ne_nil (digits : PyStr) (p : Int) : layoutDigits digits p ≠ [] := by
  unfold layoutDigits
  split
  · split <;> simp [py]
  · simp

theorem PyFloat.repr_ne_nil (x : PyFloat) : x.repr ≠ [] := by
  cases x with
  | nan => decide
  | inf neg => cases neg <;> decide
  | finite neg mant exp =>
      by_cases hm : mant = 0
      · subst hm
        exact List.append_ne_nil_of_right_ne_nil _ (by decide)
      · obtain ⟨⟨num, den⟩, hfraction⟩ : ∃ q, (if 0 ≤ exp then (mant * 2 ^ exp.toNat, 1)
            else (mant, 2 ^ (-exp).toNat)) = q := ⟨_, rfl⟩
        obtain ⟨⟨d, p⟩, hdigits⟩ : ∃ r, shortestDigits neg num den
            (decimalPoint num den 700 (-330)) 17 1 = r := ⟨_, rfl⟩
        rw [PyFloat.repr_finite neg hm hfraction hdigits]
        exact List.append_ne_nil_of_right_ne_nil _ (layoutDigits_ne_nil _ _)

/-- The first character of a printed float. -/
theorem repr_head {x : PyFloat} (hx : x.IsValue) :
    ∃ c rest, x.repr = c :: rest ∧ (c = 45 ∨ c = 73 ∨ c = 78 ∨ IsDigit c) := by
  cases x with
  | nan => exact ⟨78, _, rfl, Or.inr (Or.inr (Or.inl rfl))⟩
  | inf neg =>
      cases neg with
      | true => exact ⟨45, _, rfl, Or.inl rfl⟩
      | false => exact ⟨73, _, rfl, Or.inr (Or.inl rfl)⟩
  | finite neg mant exp =>
      obtain ⟨c, body, hrepr, hc, -⟩ := finite_repr neg hx
      cases neg with
      | true => exact ⟨45, c :: body, hrepr, Or.inl rfl⟩
      | false => exact ⟨c, body, hrepr, Or.inr (Or.inr (Or.inr hc))⟩

end Python
end FrigateXdna
