import Mathlib.Algebra.Order.Round
import Mathlib.Data.Int.Log
import Mathlib.Data.Rat.Floor
import Mathlib.Tactic.Linarith
import Mathlib.Tactic.Ring

/-!
Rounding to binary64: to the nearest number of 53 significant bits, halves to the even one. A number
overflows exactly from half a unit beyond the largest number on.
-/

namespace Orchestrator.Lib.Binary64

/-- The integer nearest to `q`, halves to the even one. -/
def roundEven (q : ℚ) : ℤ :=
  if q - q.floor < 1 / 2 then q.floor
  else if q - q.floor = 1 / 2 then q.floor + q.floor % 2
  else q.floor + 1

/-- The exponent of the last bit of `q`. -/
def exponent (q : ℚ) : ℤ := max (Int.log 2 |q| - 52) (-1074)

/-- The number nearest to `q`, if numbers could be arbitrarily large. -/
def nearest (q : ℚ) : ℚ := roundEven (q / 2 ^ exponent q) * 2 ^ exponent q

/-- The number nearest to `q`; none, if that is an infinity. -/
def round (q : ℚ) : Option ℚ := if |nearest q| < 2 ^ 1024 then some (nearest q) else none

/-- The quotient of a natural number and a number. -/
def quotient (n : ℕ) (x : ℚ) : Option ℚ := (round n).bind fun y => round (y / x)

example : roundEven 7.5 = 8 ∧ roundEven 8.5 = 8 := by decide +kernel
example : quotient 3 (nearest 0.4) = some 7.5 := by decide +kernel

/-! ### Integers -/

variable {q : ℚ} {n : ℤ}

/-- Rounding moves by a half at most, and by a half only to an even integer. -/
lemma roundEven_near (q : ℚ) : |(roundEven q : ℚ) - q| ≤ 1 / 2 ∧
    (|(roundEven q : ℚ) - q| = 1 / 2 → roundEven q % 2 = 0) := by
  have hlow : ((q.floor : ℤ) : ℚ) ≤ q := Int.floor_le q
  have hhigh : q < (q.floor : ℤ) + 1 := Int.lt_floor_add_one q
  unfold roundEven
  generalize q.floor = m at hlow hhigh ⊢
  by_cases hdown : q - m < 1 / 2
  · rw [if_pos hdown, abs_of_nonpos (by linarith)]
    exact ⟨by linarith, fun h => by linarith⟩
  rw [if_neg hdown]
  by_cases hhalf : q - m = 1 / 2
  · rw [if_pos hhalf]
    rcases Int.emod_two_eq_zero_or_one m with hm | hm
    · rw [hm, add_zero, abs_of_nonpos (by linarith)]
      exact ⟨by linarith, fun _ => hm⟩
    · rw [hm, abs_of_nonneg (by push_cast; linarith)]
      exact ⟨by push_cast; linarith, fun _ => by omega⟩
  · have hup : 1 / 2 < q - m := lt_of_le_of_ne (not_lt.mp hdown) (Ne.symm hhalf)
    rw [if_neg hhalf, abs_of_nonneg (by push_cast; linarith)]
    push_cast
    exact ⟨by linarith, fun h => by linarith⟩

/-- At an even bound, rounding counts from the half below it. -/
lemma le_abs_roundEven_iff (hn : n % 2 = 0) : n ≤ |roundEven q| ↔ (n : ℚ) - 1 / 2 ≤ |q| := by
  obtain ⟨hnear, heven⟩ := roundEven_near q
  have hr : ((|roundEven q| : ℤ) : ℚ) = |(roundEven q : ℚ)| := Int.cast_abs
  have hgain := abs_sub_abs_le_abs_sub (roundEven q : ℚ) q
  have hloss := abs_sub_abs_le_abs_sub q (roundEven q : ℚ)
  rw [abs_sub_comm] at hloss
  constructor
  · intro h
    have h' : (n : ℚ) ≤ (|roundEven q| : ℤ) := Int.cast_le.mpr h
    linarith
  · intro h
    by_contra hlt
    have hpred : ((|roundEven q| : ℤ) : ℚ) ≤ n - 1 := by
      exact_mod_cast (show |roundEven q| ≤ n - 1 by omega)
    -- the odd integer below the bound would have been the nearer one
    have hodd : |roundEven q| = n - 1 := by
      have : (n : ℚ) - 1 ≤ (|roundEven q| : ℤ) := by linarith
      have : n - 1 ≤ |roundEven q| := by exact_mod_cast this
      omega
    have hmod := heven (le_antisymm hnear (by linarith))
    rcases abs_choice (roundEven q) with habs | habs <;> omega

lemma abs_roundEven_le (h : |q| ≤ n) : |roundEven q| ≤ n := by
  have hnear := (roundEven_near q).1
  have hr : ((|roundEven q| : ℤ) : ℚ) = |(roundEven q : ℚ)| := Int.cast_abs
  have hgain := abs_sub_abs_le_abs_sub (roundEven q : ℚ) q
  have hlt : ((|roundEven q| : ℤ) : ℚ) < (n + 1 : ℤ) := by
    push_cast
    linarith
  have := Int.cast_lt.mp hlt
  omega

/-! ### Overflow -/

lemma zpow_pos_two (e : ℤ) : (0 : ℚ) < 2 ^ e := zpow_pos (by norm_num) e

lemma abs_scaled (q : ℚ) (e : ℤ) : |q / 2 ^ e| = |q| / 2 ^ e := by
  rw [abs_div, abs_of_pos (zpow_pos_two e)]

lemma abs_nearest (q : ℚ) :
    |nearest q| = ((|roundEven (q / 2 ^ exponent q)| : ℤ) : ℚ) * 2 ^ exponent q := by
  rw [nearest, abs_mul, abs_of_pos (zpow_pos_two _), Int.cast_abs]

/-- A number below a power of two is not rounded beyond it. -/
lemma abs_nearest_le {e : ℤ} (he : exponent q ≤ e) (h : |q| ≤ 2 ^ (exponent q + 53)) :
    |nearest q| ≤ 2 ^ (e + 53) := by
  have hround : |roundEven (q / 2 ^ exponent q)| ≤ 2 ^ 53 := by
    apply abs_roundEven_le
    rw [abs_scaled, div_le_iff₀ (zpow_pos_two _)]
    refine h.trans_eq ?_
    rw [zpow_add₀ (by norm_num)]
    norm_num
    ring
  calc |nearest q| = ((|roundEven (q / 2 ^ exponent q)| : ℤ) : ℚ) * 2 ^ exponent q := abs_nearest q
    _ ≤ ((2 ^ 53 : ℤ) : ℚ) * 2 ^ exponent q :=
        mul_le_mul_of_nonneg_right (Int.cast_le.mpr hround) (zpow_pos_two _).le
    _ = 2 ^ (exponent q + 53) := by
        rw [zpow_add₀ (by norm_num)]
        norm_num
        ring
    _ ≤ 2 ^ (e + 53) := zpow_le_zpow_right₀ (by norm_num) (by omega)

lemma abs_lt_zpow_exponent (q : ℚ) : |q| < 2 ^ (exponent q + 53) := by
  have hlog := Int.lt_zpow_succ_log_self (b := 2) (by norm_num) |q|
  rw [Nat.cast_ofNat] at hlog
  exact hlog.trans_le (zpow_le_zpow_right₀ (by norm_num) (by rw [exponent]; omega))

lemma exponent_le_of_lt (h : |q| < 2 ^ 1023) : exponent q ≤ 970 := by
  rw [exponent]
  by_cases h0 : q = 0
  · rw [h0, abs_zero, Int.log_zero_right]
    decide
  · have hlog := Int.zpow_log_le_self (b := 2) (by norm_num) (abs_pos.mpr h0)
    rw [Nat.cast_ofNat] at hlog
    have hlt : (2 : ℚ) ^ Int.log 2 |q| < 2 ^ (1023 : ℤ) := hlog.trans_lt (by exact_mod_cast h)
    have := (zpow_lt_zpow_iff_right₀ (by norm_num : (1 : ℚ) < 2)).mp hlt
    omega

/-- **Overflow**: a number is rounded to an infinity from half a unit beyond the largest number
on. -/
theorem round_eq_none_iff : round q = none ↔ 2 ^ 1024 - 2 ^ 970 ≤ |q| := by
  have hround : round q = none ↔ 2 ^ 1024 ≤ |nearest q| := by
    rw [round, ← not_lt]
    split
    · next h => exact iff_of_false nofun (not_not.mpr h)
    · next h => exact iff_of_true rfl h
  rw [hround]
  by_cases hsmall : |q| < 2 ^ 1023
  · have hle := abs_nearest_le (exponent_le_of_lt hsmall) (abs_lt_zpow_exponent q).le
    have hlimit : (2 : ℚ) ^ ((970 : ℤ) + 53) < 2 ^ 1024 := by decide +kernel
    have hbound : (2 : ℚ) ^ 1023 < 2 ^ 1024 - 2 ^ 970 := by decide +kernel
    exact iff_of_false (not_le.mpr (hle.trans_lt hlimit)) (not_le.mpr (hsmall.trans hbound))
  have hlarge := not_lt.mp hsmall
  have hpos : 0 < |q| := (by positivity : (0 : ℚ) < 2 ^ 1023).trans_le hlarge
  have hlog : 1023 ≤ Int.log 2 |q| := by
    refine (Int.zpow_le_iff_le_log (b := 2) (by norm_num) hpos).mp ?_
    exact_mod_cast hlarge
  have hexp : exponent q = Int.log 2 |q| - 52 := max_eq_left (by omega)
  rw [abs_nearest]
  rcases hlog.eq_or_lt with hlast | hbeyond
  · -- in the last binade, the significand decides
    have hlast : exponent q = 971 := by omega
    have hone : (0 : ℚ) < 2 ^ (971 : ℤ) := zpow_pos_two 971
    have htop : (2 : ℚ) ^ 1024 = ((2 ^ 53 : ℤ) : ℚ) * 2 ^ (971 : ℤ) := by decide +kernel
    have hhalf : (2 : ℚ) ^ 970 = 1 / 2 * 2 ^ (971 : ℤ) := by decide +kernel
    rw [hlast, htop, hhalf, mul_le_mul_iff_left₀ hone, Int.cast_le,
      le_abs_roundEven_iff (by norm_num), abs_scaled, le_div_iff₀ hone, sub_mul]
  · have hq : (2 : ℚ) ^ Int.log 2 |q| ≤ |q| := by
      exact_mod_cast Int.zpow_log_le_self (b := 2) (by norm_num) hpos
    have htop : (2 : ℚ) ^ 1024 ≤ 2 ^ Int.log 2 |q| := by
      rw [← zpow_natCast]
      exact zpow_le_zpow_right₀ (by norm_num) (by omega)
    have hsplit : (2 : ℚ) ^ Int.log 2 |q| = ((2 ^ 52 : ℤ) : ℚ) * 2 ^ exponent q := by
      rw [hexp, zpow_sub₀ (by norm_num)]
      norm_num
      ring
    have hunit : (0 : ℚ) ≤ 2 ^ 970 := by positivity
    refine iff_of_true (htop.trans ?_) (((sub_le_self _ hunit).trans htop).trans hq)
    rw [hsplit]
    refine mul_le_mul_of_nonneg_right (Int.cast_le.mpr ?_) (zpow_pos_two _).le
    rw [le_abs_roundEven_iff (by norm_num), abs_scaled, le_div_iff₀ (zpow_pos_two _), sub_mul,
      ← hsplit]
    have hone := zpow_pos_two (exponent q)
    linarith

lemma nearest_of_round {x : ℚ} (h : round q = some x) : nearest q = x := by
  rw [round] at h
  split at h
  · exact Option.some.inj h
  · cases h

theorem quotient_eq_none_iff {m : ℕ} {x : ℚ} : quotient m x = none ↔
    2 ^ 1024 - 2 ^ 970 ≤ (m : ℚ) ∨ 2 ^ 1024 - 2 ^ 970 ≤ |nearest m / x| := by
  have hbound := round_eq_none_iff (q := (m : ℚ))
  rw [Nat.abs_cast] at hbound
  rw [quotient, ← hbound, ← round_eq_none_iff]
  cases hround : round (m : ℚ) with
  | none => exact iff_of_true rfl (Or.inl rfl)
  | some y => rw [Option.bind_some, nearest_of_round hround, or_iff_right nofun]

end Orchestrator.Lib.Binary64
