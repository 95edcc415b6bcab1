import Mathlib.Data.Int.Log
import Mathlib.Data.Rat.Floor
import Mathlib.Algebra.Order.Field.Power
import Mathlib.Algebra.Ring.Int.Parity
import Mathlib.Tactic.Linarith
import Mathlib.Tactic.NormNum
import Mathlib.Tactic.Positivity

/-!
# Binary floating-point numbers

The numbers of a format have so many binary digits, the last of which may not be too small. Nothing
bounds them above: a result that is too large for the width of the exponent can be told by its
value. Rationals are rounded to the nearest number, and in the middle of two numbers to the one
whose last digit is even.
-/

namespace Lib

/-! ### Nearest integers -/

/-- The nearest integer, in the middle of two the even one. -/
def roundHalfEven (q : ℚ) : ℤ :=
  if Int.fract q < 1 / 2 then ⌊q⌋
  else if 1 / 2 < Int.fract q then ⌊q⌋ + 1
  else if Even ⌊q⌋ then ⌊q⌋
  else ⌊q⌋ + 1

section roundHalfEven

variable (q : ℚ)

lemma roundHalfEven_cases : roundHalfEven q = ⌊q⌋ ∧ Int.fract q ≤ 1 / 2 ∨
    roundHalfEven q = ⌊q⌋ + 1 ∧ 1 / 2 ≤ Int.fract q := by
  rw [roundHalfEven]
  split_ifs with hlt hgt heven
  · exact .inl ⟨rfl, hlt.le⟩
  · exact .inr ⟨rfl, hgt.le⟩
  · exact .inl ⟨rfl, not_lt.mp hgt⟩
  · exact .inr ⟨rfl, not_lt.mp hlt⟩

lemma abs_sub_roundHalfEven_le : |q - roundHalfEven q| ≤ 1 / 2 := by
  have hfract : Int.fract q = q - ⌊q⌋ := rfl
  rw [abs_le]
  rcases roundHalfEven_cases q with ⟨h, hle⟩ | ⟨h, hle⟩
  · have hpos := Int.fract_nonneg q
    rw [h]
    constructor <;> linarith
  · have hlt := Int.fract_lt_one q
    rw [h]
    push_cast
    constructor <;> linarith

/-- No integer is nearer. -/
lemma abs_sub_roundHalfEven_le_abs_sub (n : ℤ) : |q - roundHalfEven q| ≤ |q - n| := by
  by_cases hn : n = roundHalfEven q
  · rw [hn]
  · -- another integer is at least one away from the result
    have hone : (1 : ℚ) ≤ |(roundHalfEven q : ℚ) - n| := by
      have hne : roundHalfEven q - n ≠ 0 := sub_ne_zero.mpr (Ne.symm hn)
      exact_mod_cast Int.one_le_abs hne
    have hhalf := abs_sub_roundHalfEven_le q
    have htriangle := abs_sub_le (roundHalfEven q : ℚ) q n
    rw [abs_sub_comm (roundHalfEven q : ℚ) q] at htriangle
    linarith

/-- What is bounded by an integer still is. -/
lemma abs_roundHalfEven_le {n : ℤ} (h : |q| ≤ n) : |roundHalfEven q| ≤ n := by
  obtain ⟨hlow, hhigh⟩ := abs_le.mp h
  by_contra hlt
  rcases lt_abs.mp (not_le.mp hlt) with hgt | hgt
  · have hge : (n : ℚ) + 1 ≤ roundHalfEven q := by exact_mod_cast hgt
    have hnear := (abs_le.mp (abs_sub_roundHalfEven_le q)).1
    linarith
  · have hge : (n : ℚ) + 1 ≤ -roundHalfEven q := by exact_mod_cast hgt
    have hnear := (abs_le.mp (abs_sub_roundHalfEven_le q)).2
    linarith

end roundHalfEven

/-! ### Formats -/

/-- The number of digits, and the exponent of the smallest last digit. -/
structure FloatFormat where
  precision : ℕ
  least : ℤ
  precision_pos : 0 < precision

namespace FloatFormat

/-- Doubles. -/
def binary64 : FloatFormat := ⟨53, -1074, by decide⟩

/-- The rational is a number of the format. -/
def Number (F : FloatFormat) (x : ℚ) : Prop :=
  ∃ m e : ℤ, |m| < 2 ^ F.precision ∧ F.least ≤ e ∧ x = m * 2 ^ e

/-- The exponent of the last digit of the numbers near a rational. -/
def exponent (F : FloatFormat) (q : ℚ) : ℤ := max (Int.log 2 |q| + 1 - F.precision) F.least

/-- The nearest number. -/
def round (F : FloatFormat) (q : ℚ) : ℚ :=
  roundHalfEven (q / 2 ^ F.exponent q) * 2 ^ F.exponent q

variable {F : FloatFormat} {q x y : ℚ}

lemma two_zpow_pos (e : ℤ) : (0 : ℚ) < 2 ^ e := zpow_pos two_pos e

/-- One digit more is no other number when only the first one is set. -/
lemma number_of_abs_le {m e : ℤ} (hm : |m| ≤ 2 ^ F.precision) (he : F.least ≤ e) :
    F.Number (m * 2 ^ e) := by
  rcases hm.lt_or_eq with hlt | heq
  · exact ⟨m, e, hlt, he, rfl⟩
  · obtain ⟨p, hp⟩ := Nat.exists_eq_add_one_of_ne_zero F.precision_pos.ne'
    have hsplit : m = m.sign * 2 ^ p * 2 := by
      rw [mul_assoc, ← pow_succ, ← hp, ← heq, Int.sign_mul_abs]
    refine ⟨m.sign * 2 ^ p, e + 1, ?_, by omega, ?_⟩
    · have hne : m ≠ 0 := by
        rintro rfl
        exact absurd heq (by positivity)
      rw [abs_mul, Int.abs_sign_of_ne_zero hne, one_mul, abs_of_nonneg (by positivity), hp]
      exact pow_lt_pow_right₀ (by decide) (Nat.lt_succ_self p)
    · conv_lhs => rw [hsplit]
      rw [zpow_add_one₀ two_ne_zero]
      push_cast
      ring

/-- The digits of a rational, up to its exponent, fit in. -/
lemma abs_div_lt : |q / 2 ^ F.exponent q| < 2 ^ F.precision := by
  rw [abs_div, abs_of_pos (two_zpow_pos _), div_lt_iff₀ (two_zpow_pos _), ← zpow_natCast,
    ← zpow_add₀ two_ne_zero]
  have hexponent : Int.log 2 |q| + 1 ≤ F.precision + F.exponent q := by
    have hmax := le_max_left (Int.log 2 |q| + 1 - F.precision) F.least
    rw [exponent]
    omega
  calc |q| < (2 : ℕ) ^ (Int.log 2 |q| + 1) := Int.lt_zpow_succ_log_self one_lt_two |q|
    _ ≤ 2 ^ (F.precision + F.exponent q) :=
      zpow_le_zpow_right₀ (by norm_num) hexponent

/-- The result is a number of the format. -/
lemma number_round (F : FloatFormat) (q : ℚ) : F.Number (F.round q) := by
  refine number_of_abs_le (abs_roundHalfEven_le _ ?_) (le_max_right _ _)
  push_cast
  exact abs_div_lt.le

/-- No multiple of the last digit is nearer. -/
lemma abs_sub_round_le_of_multiple (q : ℚ) (m : ℤ) :
    |q - F.round q| ≤ |q - m * 2 ^ F.exponent q| := by
  have hscale : ∀ n : ℤ, |q - n * 2 ^ F.exponent q| =
      |q / 2 ^ F.exponent q - n| * 2 ^ F.exponent q := by
    intro n
    have hpos := two_zpow_pos (F.exponent q)
    rw [← abs_of_pos hpos, ← abs_mul, abs_of_pos hpos, sub_mul, div_mul_cancel₀ _ hpos.ne']
  rw [round, hscale, hscale]
  exact mul_le_mul_of_nonneg_right (abs_sub_roundHalfEven_le_abs_sub _ m) (two_zpow_pos _).le

/-- Above the smallest exponent, the power of two under a rational is not nearer. -/
lemma abs_sub_round_le_of_lt (hq : q ≠ 0) (h : F.least < F.exponent q) :
    |q - F.round q| ≤ |q| - 2 ^ Int.log 2 |q| := by
  have hlog : (2 : ℚ) ^ Int.log 2 |q| ≤ |q| :=
    Int.zpow_log_le_self one_lt_two (abs_pos.mpr hq)
  obtain ⟨p, hp⟩ := Nat.exists_eq_add_one_of_ne_zero F.precision_pos.ne'
  have hsum : (p : ℤ) + F.exponent q = Int.log 2 |q| := by
    rw [exponent] at h ⊢
    omega
  have hmultiple : ∀ s : ℤ, ((s * 2 ^ p : ℤ) : ℚ) * 2 ^ F.exponent q =
      s * 2 ^ Int.log 2 |q| := by
    intro s
    push_cast
    rw [mul_assoc, ← zpow_natCast, ← zpow_add₀ two_ne_zero, hsum]
  rcases le_or_gt 0 q with hpos | hneg
  · have hnear := abs_sub_round_le_of_multiple (F := F) q (1 * 2 ^ p)
    rw [hmultiple, Int.cast_one, one_mul] at hnear
    rw [abs_of_nonneg hpos] at hlog hnear ⊢
    rwa [abs_of_nonneg (sub_nonneg.mpr hlog)] at hnear
  · have hnear := abs_sub_round_le_of_multiple (F := F) q (-1 * 2 ^ p)
    rw [hmultiple, Int.cast_neg, Int.cast_one, neg_one_mul, sub_neg_eq_add] at hnear
    rw [abs_of_neg hneg] at hlog hnear ⊢
    have hnonpos : q + 2 ^ Int.log 2 (-q) ≤ 0 := by linarith
    rw [abs_of_nonpos hnonpos] at hnear
    linarith

/-- Numbers with a last digit below the exponent are below the power of two. -/
lemma abs_le_of_lt {m e : ℤ} (hm : |m| < 2 ^ F.precision) (he : F.least ≤ e)
    (h : e < F.exponent q) : |(m * 2 ^ e : ℚ)| ≤ 2 ^ Int.log 2 |q| := by
  have hm' : |(m : ℚ)| ≤ 2 ^ (F.precision : ℤ) := by
    rw [zpow_natCast]
    exact_mod_cast hm.le
  have hexponent : F.precision + e ≤ Int.log 2 |q| := by
    rw [exponent] at h
    omega
  calc |(m * 2 ^ e : ℚ)| = |(m : ℚ)| * 2 ^ e := by rw [abs_mul, abs_of_pos (two_zpow_pos e)]
    _ ≤ 2 ^ (F.precision : ℤ) * 2 ^ e := mul_le_mul_of_nonneg_right hm' (two_zpow_pos e).le
    _ = 2 ^ (F.precision + e) := (zpow_add₀ two_ne_zero _ _).symm
    _ ≤ 2 ^ Int.log 2 |q| := zpow_le_zpow_right₀ one_le_two hexponent

/-- No number of the format is nearer. -/
theorem abs_sub_round_le (q : ℚ) (hx : F.Number x) : |q - F.round q| ≤ |q - x| := by
  obtain ⟨m, e, hm, he, rfl⟩ := hx
  rcases le_or_gt (F.exponent q) e with hle | hlt
  · have hmultiple : (m * 2 ^ e : ℚ) =
        ((m * 2 ^ (e - F.exponent q).toNat : ℤ) : ℚ) * 2 ^ F.exponent q := by
      push_cast
      rw [mul_assoc, ← zpow_natCast, ← zpow_add₀ two_ne_zero, Int.toNat_of_nonneg (by omega),
        sub_add_cancel]
    rw [hmultiple]
    exact abs_sub_round_le_of_multiple q _
  · rcases eq_or_ne q 0 with rfl | hq
    · have hzero := abs_sub_round_le_of_multiple (F := F) 0 0
      simp only [Int.cast_zero, zero_mul, sub_zero, abs_zero] at hzero
      exact hzero.trans (abs_nonneg _)
    · calc |q - F.round q| ≤ |q| - 2 ^ Int.log 2 |q| := abs_sub_round_le_of_lt hq (he.trans_lt hlt)
        _ ≤ |q| - |(m * 2 ^ e : ℚ)| := sub_le_sub_left (abs_le_of_lt hm he hlt) _
        _ ≤ |q - m * 2 ^ e| := abs_sub_abs_le_abs_sub _ _

/-- Numbers of the format are not changed. -/
lemma round_of_number (hx : F.Number x) : F.round x = x := by
  have hnearest := abs_sub_round_le x hx
  rw [sub_self, abs_zero] at hnearest
  exact (sub_eq_zero.mp (abs_nonpos_iff.mp hnearest)).symm

/-- Rounding keeps the order. -/
lemma round_mono (h : x ≤ y) : F.round x ≤ F.round y := by
  by_contra hlt
  have hx := abs_sub_round_le x (F.number_round y)
  have hy := abs_sub_round_le y (F.number_round x)
  rw [not_le] at hlt
  -- both are in the middle of the results, and so they are the same
  have hmiddle_le : F.round x + F.round y ≤ 2 * x := by
    rcases abs_cases (x - F.round x) with h | h <;>
    rcases abs_cases (x - F.round y) with h' | h' <;>
    linarith
  have hle_middle : 2 * y ≤ F.round x + F.round y := by
    rcases abs_cases (y - F.round x) with h | h <;>
    rcases abs_cases (y - F.round y) with h' | h' <;>
    linarith
  have hxy : x = y := by linarith
  rw [hxy] at hlt
  exact hlt.false

/-! ### Integers -/

lemma number_intCast (hleast : F.least ≤ 0) {n : ℤ} (hn : |n| ≤ 2 ^ F.precision) :
    F.Number n := by
  have h := number_of_abs_le hn hleast
  rwa [zpow_zero, mul_one] at h

/-- With an integer that has so few digits, all integers compare after rounding as before. -/
lemma round_intCast_le_iff (hleast : F.least ≤ 0) {m n : ℤ} (hm : |m| < 2 ^ F.precision) :
    F.round n ≤ m ↔ n ≤ m := by
  have hfixed : ∀ k : ℤ, |k| ≤ 2 ^ F.precision → F.round k = k := fun k hk =>
    round_of_number (number_intCast hleast hk)
  constructor
  · intro h
    by_contra hlt
    have hsucc : ((m + 1 : ℤ) : ℚ) ≤ n := by exact_mod_cast not_le.mp hlt
    have hround := round_mono (F := F) hsucc
    rw [hfixed (m + 1) (by rw [abs_le]; rw [abs_lt] at hm; omega)] at hround
    push_cast at hround
    linarith
  · intro h
    have hround := round_mono (F := F) (Int.cast_le (R := ℚ).mpr h)
    rwa [hfixed m hm.le] at hround

lemma le_round_intCast_iff (hleast : F.least ≤ 0) {m n : ℤ} (hm : |m| < 2 ^ F.precision) :
    m ≤ F.round n ↔ m ≤ n := by
  have hfixed : ∀ k : ℤ, |k| ≤ 2 ^ F.precision → F.round k = k := fun k hk =>
    round_of_number (number_intCast hleast hk)
  constructor
  · intro h
    by_contra hlt
    have hpred : (n : ℚ) ≤ ((m - 1 : ℤ) : ℚ) := by
      exact_mod_cast Int.le_sub_one_of_lt (not_le.mp hlt)
    have hround := round_mono (F := F) hpred
    rw [hfixed (m - 1) (by rw [abs_le]; rw [abs_lt] at hm; omega)] at hround
    push_cast at hround
    linarith
  · intro h
    have hround := round_mono (F := F) (Int.cast_le (R := ℚ).mpr h)
    rwa [hfixed m hm.le] at hround

/-- The least integer that is no double, a tenth, and the smallest subnormal number. -/
example : binary64.round (2 ^ 53 + 1) = 2 ^ 53 ∧
    binary64.round (1 / 10) = 3602879701896397 / 36028797018963968 ∧
    binary64.round (2 / 3 * 2 ^ (-1074 : ℤ)) = 2 ^ (-1074 : ℤ) := by decide +kernel

end FloatFormat

end Lib
