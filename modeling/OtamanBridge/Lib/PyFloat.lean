import Mathlib.Data.Int.Log
import OtamanBridge.Lib.PyInstant

/-!
# Quotients as doubles

`n / d` of two Python integers is the double nearest to the quotient, and `int` cuts a
double off. For a number of microseconds below `2 ^ 53` the two together give the whole
seconds (`OtamanBridge.Py.trunc_nearest_div`); above, in some 285 years, a part of a second
may be rounded up to a whole one.
-/

namespace OtamanBridge

namespace Py

open Utc (roundHalfEven)

/-! ### Rounding to an integer -/

theorem abs_roundHalfEven_sub_le (q : ℚ) : |(roundHalfEven q : ℚ) - q| ≤ 1 / 2 := by
  have hfloor := Int.floor_le q
  have hlt := Int.lt_floor_add_one q
  unfold roundHalfEven
  rw [abs_le]
  split_ifs with hlow hhigh heven <;> push_cast <;> constructor <;> linarith

/-- An integer below a number is below what it is rounded to. -/
theorem le_roundHalfEven {n : ℤ} {q : ℚ} (h : (n : ℚ) ≤ q) : n ≤ roundHalfEven q := by
  have hclose := (abs_le.mp (abs_roundHalfEven_sub_le q)).1
  have hlt : ((n - 1 : ℤ) : ℚ) < roundHalfEven q := by
    push_cast
    linarith
  have := Int.cast_lt.mp hlt
  omega

/-! ### Doubles -/

/-- The distance of the doubles around a number, which has 53 binary digits. -/
def ulp (q : ℚ) : ℚ := 2 ^ (Int.log 2 |q| - 52)

/-- The double nearest to a number, and of two the even one. Numbers that are too big or too
small for a double are not looked at. -/
def nearest (q : ℚ) : ℚ := roundHalfEven (q / ulp q) * ulp q

/-- `int(x)` of a double. -/
def trunc (q : ℚ) : ℤ := if 0 ≤ q then ⌊q⌋ else ⌈q⌉

/-- `int` does not change the order. -/
theorem trunc_mono {p q : ℚ} (h : p ≤ q) : trunc p ≤ trunc q := by
  unfold trunc
  split_ifs with hp hq hq
  · exact Int.floor_le_floor h
  · exact absurd (hp.trans h) hq
  · have hceil : ⌈p⌉ ≤ 0 := Int.ceil_le.mpr (by simpa using (not_le.mp hp).le)
    exact hceil.trans (Int.floor_nonneg.mpr hq)
  · exact Int.ceil_le_ceil h

theorem ulp_pos (q : ℚ) : 0 < ulp q := zpow_pos (by norm_num) _

theorem abs_nearest_sub_le (q : ℚ) : |nearest q - q| ≤ ulp q / 2 := by
  have hpos := ulp_pos q
  have hq : nearest q - q = (roundHalfEven (q / ulp q) - q / ulp q) * ulp q := by
    rw [nearest, sub_mul, div_mul_cancel₀ _ hpos.ne']
  rw [hq, abs_mul, abs_of_pos hpos]
  calc |(roundHalfEven (q / ulp q) : ℚ) - q / ulp q| * ulp q
      ≤ 1 / 2 * ulp q := mul_le_mul_of_nonneg_right (abs_roundHalfEven_sub_le _) hpos.le
    _ = ulp q / 2 := by ring

/-- The doubles around a number below `2 ^ 34` are at most `2 ^ -19` apart. -/
theorem ulp_le {q : ℚ} (hq : 0 < q) (hlt : q < 2 ^ 34) : ulp q ≤ 2 ^ (-19 : ℤ) := by
  refine zpow_le_zpow_right₀ (by norm_num) ?_
  have hlog : Int.log 2 |q| < 34 := by
    rw [abs_of_pos hq]
    refine (Int.lt_zpow_iff_log_lt (b := 2) (by norm_num) hq).mp ?_
    exact_mod_cast hlt
  omega

/-- An integer is a multiple of the distance of the doubles, where that is at most one. -/
theorem exists_ulp_mul_two_pow {q : ℚ} (hexp : Int.log 2 |q| ≤ 52) :
    ∃ k : ℕ, ulp q * 2 ^ k = 1 := by
  obtain ⟨k, hk⟩ : ∃ k : ℕ, (k : ℤ) = 52 - Int.log 2 |q| := ⟨_, Int.toNat_of_nonneg (by omega)⟩
  refine ⟨k, ?_⟩
  rw [ulp, ← zpow_natCast, ← zpow_add₀ (by norm_num), hk]
  norm_num

/-- An integer below a number is below its double, as long as the doubles there are no
further apart than the integers. -/
theorem le_nearest {n : ℕ} {q : ℚ} (h : (n : ℚ) ≤ q) (hexp : Int.log 2 |q| ≤ 52) :
    (n : ℚ) ≤ nearest q := by
  have hpos := ulp_pos q
  obtain ⟨k, hulp⟩ := exists_ulp_mul_two_pow hexp
  have hn : (n : ℚ) = ((n * 2 ^ k : ℤ) : ℚ) * ulp q := by
    push_cast
    rw [mul_assoc, mul_comm (2 ^ k : ℚ), hulp, mul_one]
  have hle : ((n * 2 ^ k : ℤ) : ℚ) ≤ q / ulp q := by
    rw [le_div_iff₀ hpos, ← hn]
    exact h
  rw [hn, nearest]
  exact mul_le_mul_of_nonneg_right (Int.cast_le.mpr (le_roundHalfEven hle)) hpos.le

theorem roundHalfEven_intCast (n : ℤ) : roundHalfEven n = n := by
  simp [roundHalfEven]

/-- **A whole number below `2 ^ 53` is a double.** -/
theorem nearest_natCast {n : ℕ} (h : n < 2 ^ 53) : nearest n = n := by
  rcases Nat.eq_zero_or_pos n with rfl | hn
  · simp [nearest, roundHalfEven]
  have hq : (0 : ℚ) < n := by exact_mod_cast hn
  have hexp : Int.log 2 |(n : ℚ)| ≤ 52 := by
    rw [abs_of_pos hq]
    have := (Int.lt_zpow_iff_log_lt (b := 2) (by norm_num) hq (x := 53)).mp
      (by exact_mod_cast h)
    omega
  obtain ⟨k, hulp⟩ := exists_ulp_mul_two_pow hexp
  have hpos := ulp_pos n
  have hdiv : (n : ℚ) / ulp n = ((n * 2 ^ k : ℤ) : ℚ) := by
    rw [div_eq_iff hpos.ne']
    push_cast
    rw [mul_assoc, mul_comm (2 ^ k : ℚ), hulp, mul_one]
  rw [nearest, hdiv, roundHalfEven_intCast, ← hdiv, div_mul_cancel₀ _ hpos.ne']

/-- **Whole seconds are exact**, below `2 ^ 53` microseconds. -/
theorem trunc_nearest_div {n : ℕ} (h : n < 2 ^ 53) :
    trunc (nearest (n / 1000000)) = (n / 1000000 : ℕ) := by
  rcases Nat.eq_zero_or_pos n with rfl | hn
  · simp [trunc, nearest, roundHalfEven]
  have hq : (0 : ℚ) < n / 1000000 := by positivity
  have hlt : (n / 1000000 : ℚ) < 2 ^ 34 := by
    have : (n : ℚ) < 2 ^ 53 := by exact_mod_cast h
    rw [div_lt_iff₀ (by norm_num)]
    linarith
  have hmod : (n : ℚ) = (n / 1000000 : ℕ) * 1000000 + (n % 1000000 : ℕ) := by
    exact_mod_cast (Nat.div_add_mod' n 1000000).symm
  have hrest : ((n % 1000000 : ℕ) : ℚ) ≤ 999999 := by
    exact_mod_cast Nat.le_of_lt_succ (Nat.mod_lt n (by norm_num))
  have hrest0 : (0 : ℚ) ≤ (n % 1000000 : ℕ) := Nat.cast_nonneg _
  have hlow : ((n / 1000000 : ℕ) : ℚ) ≤ nearest (n / 1000000) := by
    refine le_nearest ?_ ?_
    · rw [le_div_iff₀ (by norm_num)]
      linarith
    · rw [abs_of_pos hq]
      have := (Int.lt_zpow_iff_log_lt (b := 2) (by norm_num) hq (x := 34)).mp
        (by exact_mod_cast hlt)
      omega
  have hhigh : nearest (n / 1000000) < (n / 1000000 : ℕ) + 1 := by
    have hclose := (abs_le.mp (abs_nearest_sub_le (n / 1000000))).2
    have hulp := ulp_le hq hlt
    have hq' : (n / 1000000 : ℚ) ≤ (n / 1000000 : ℕ) + 999999 / 1000000 := by
      rw [div_le_iff₀ (by norm_num), add_mul]
      linarith
    have : (2 : ℚ) ^ (-19 : ℤ) / 2 < 1 / 1000000 := by norm_num
    linarith
  have hpos : 0 ≤ nearest (n / 1000000) := (Nat.cast_nonneg _).trans hlow
  rw [trunc, if_pos hpos, Int.floor_eq_iff]
  exact ⟨by exact_mod_cast hlow, by exact_mod_cast hhigh⟩

end Py

end OtamanBridge
