import Orbiter.Cxx.Truncation
import Mathlib.Data.Int.Log

/-!
# Rounding

Every result of a floating-point operation is rounded to a value of its type.  The
values here are far from the ends of the exponent's range, so that is left out.

* `Rounding`: a relative error and what a rounding respects.  Exact arithmetic is one
  (`Rounding.exact`), and so are the values of type `double` (`Rounding.double`).
* `multiple`, `fraction`, `rest`: a division whose quotient is cut to a whole number and
  whose fraction is scaled back.
* `rest_lt`: **the rest stays below the divisor**, rounded or not.
* `fraction_eq_zero_iff`: **no fraction is left exactly when the division comes out
  even.**
-/

namespace Orbiter.Cxx

/-- A rounding.  Whole numbers of 53 bits are kept, and a rounded value of at least one
stays clear of the next whole number above it. -/
structure Rounding where
  round : ℚ → ℚ
  unit : ℚ
  unit_nonneg : 0 ≤ unit
  unit_le : unit ≤ 1 / 2 ^ 53
  abs_round_sub_le : ∀ x, 0 ≤ x → |round x - x| ≤ unit * x
  one_le_round : ∀ x, 1 ≤ x → 1 ≤ round x
  fract_round_le : ∀ x, 1 ≤ x → Int.fract (round x) ≤ 1 - 2 * unit
  round_natCast : ∀ n : Nat, n < 2 ^ 53 → round n = n

namespace Rounding

def exact : Rounding where
  round := id
  unit := 0
  unit_nonneg := le_rfl
  unit_le := by norm_num
  abs_round_sub_le x _ := by simp
  one_le_round _ h := h
  fract_round_le x _ := by simpa using (Int.fract_lt_one x).le
  round_natCast _ _ := rfl

/-! ### `double` -/

/-- The nearest integer, the even one of two. -/
def roundEven (x : ℚ) : Int :=
  if x - ⌊x⌋ < 1 / 2 then ⌊x⌋
  else if 1 / 2 < x - ⌊x⌋ then ⌊x⌋ + 1
  else if ⌊x⌋ % 2 = 0 then ⌊x⌋
  else ⌊x⌋ + 1

theorem abs_roundEven_sub_le (x : ℚ) : |(roundEven x : ℚ) - x| ≤ 1 / 2 := by
  have hle := Int.floor_le x
  have hlt := Int.lt_floor_add_one x
  rw [roundEven, abs_le]
  split_ifs <;> push_cast <;> constructor <;> linarith

theorem roundEven_intCast (n : Int) : roundEven n = n := by
  rw [roundEven, Int.floor_intCast, sub_self, if_pos (by norm_num)]

theorem le_roundEven {n : Int} {x : ℚ} (h : (n : ℚ) ≤ x) : n ≤ roundEven x := by
  have hfloor := Int.le_floor.mpr h
  rw [roundEven]
  split_ifs <;> omega

/-- The weight of the last of 53 binary places. -/
def lastPlace (x : ℚ) : ℚ := 2 ^ (Int.log 2 |x| - 52)

/-- The nearest value of type `double`. -/
def toDouble (x : ℚ) : ℚ := roundEven (x / lastPlace x) * lastPlace x

theorem lastPlace_pos (x : ℚ) : 0 < lastPlace x := by
  rw [lastPlace]
  exact zpow_pos (by norm_num) _

/-- The leading place of a value is 52 places in front of its last one. -/
theorem two_pow_mul_lastPlace (x : ℚ) : 2 ^ 52 * lastPlace x = 2 ^ Int.log 2 |x| := by
  rw [lastPlace, zpow_sub₀ (by norm_num)]
  norm_num
  ring

theorem two_pow_mul_lastPlace_le {x : ℚ} (h : 0 < x) : 2 ^ 52 * lastPlace x ≤ x := by
  rw [two_pow_mul_lastPlace, abs_of_pos h]
  exact Int.zpow_log_le_self (by decide) h

theorem toDouble_zero : toDouble 0 = 0 := by
  rw [toDouble, zero_div, show roundEven 0 = 0 from roundEven_intCast 0, Int.cast_zero, zero_mul]

theorem abs_toDouble_sub_le {x : ℚ} (h : 0 ≤ x) : |toDouble x - x| ≤ 1 / 2 ^ 53 * x := by
  rcases h.eq_or_lt with rfl | hpos
  · rw [toDouble_zero, sub_zero, abs_zero, mul_zero]
  · have hl := lastPlace_pos x
    have hsplit : toDouble x - x =
        (roundEven (x / lastPlace x) - x / lastPlace x) * lastPlace x := by
      rw [toDouble, sub_mul, div_mul_cancel₀ _ hl.ne']
    rw [hsplit, abs_mul, abs_of_pos hl]
    have hhalf := mul_le_mul_of_nonneg_right (abs_roundEven_sub_le (x / lastPlace x)) hl.le
    have hlead := two_pow_mul_lastPlace_le hpos
    linarith

theorem two_pow_le_toDouble {x : ℚ} (h : 0 < x) : 2 ^ Int.log 2 |x| ≤ toDouble x := by
  have hl := lastPlace_pos x
  have hlead : ((2 ^ 52 : Int) : ℚ) ≤ x / lastPlace x := by
    rw [le_div_iff₀ hl]
    exact_mod_cast two_pow_mul_lastPlace_le h
  have hround : ((2 ^ 52 : Int) : ℚ) ≤ roundEven (x / lastPlace x) := by
    exact_mod_cast le_roundEven hlead
  rw [← two_pow_mul_lastPlace, toDouble]
  refine mul_le_mul_of_nonneg_right ?_ hl.le
  exact_mod_cast hround

/-- From one on, the last place divides the 52nd behind the point. -/
theorem exists_toDouble_eq {x : ℚ} (h : 1 ≤ x) : ∃ m : Int, toDouble x = m / (2 ^ 52 : Nat) := by
  have hlog : Int.log 2 |x| = (Nat.log 2 ⌊|x|⌋₊ : Int) :=
    Int.log_of_one_le_right 2 (by rwa [abs_of_pos (by linarith)])
  have hplace : lastPlace x = 2 ^ Nat.log 2 ⌊|x|⌋₊ / 2 ^ 52 := by
    rw [eq_div_iff (by norm_num), mul_comm, two_pow_mul_lastPlace, hlog, zpow_natCast]
  refine ⟨roundEven (x / lastPlace x) * 2 ^ Nat.log 2 ⌊|x|⌋₊, ?_⟩
  rw [toDouble]
  nth_rewrite 2 [hplace]
  push_cast
  ring

theorem toDouble_natCast {n : Nat} (h : n < 2 ^ 53) : toDouble n = n := by
  rcases Nat.eq_zero_or_pos n with rfl | hpos
  · exact toDouble_zero
  · have hlog : Int.log 2 |(n : ℚ)| = (Nat.log 2 n : Int) := by
      rw [abs_of_nonneg (Nat.cast_nonneg n), Int.log_natCast]
    have hle : Nat.log 2 n ≤ 52 := by
      have := Nat.log_lt_of_lt_pow hpos.ne' h
      omega
    have hplace : lastPlace n * 2 ^ (52 - Nat.log 2 n) = 1 := by
      rw [lastPlace, hlog, ← zpow_natCast, ← zpow_add₀ (by norm_num)]
      push_cast [hle]
      norm_num
    have hl := lastPlace_pos n
    have hdiv : (n : ℚ) / lastPlace n = ((n * 2 ^ (52 - Nat.log 2 n) : Int) : ℚ) := by
      rw [div_eq_iff hl.ne']
      push_cast
      rw [mul_assoc, mul_comm ((2 : ℚ) ^ _), hplace, mul_one]
    rw [toDouble, hdiv, roundEven_intCast]
    push_cast
    rw [mul_assoc, mul_comm ((2 : ℚ) ^ _), hplace, mul_one]

def double : Rounding where
  round := toDouble
  unit := 1 / 2 ^ 53
  unit_nonneg := by norm_num
  unit_le := le_rfl
  abs_round_sub_le _ := abs_toDouble_sub_le
  one_le_round x h := by
    refine le_trans ?_ (two_pow_le_toDouble (by linarith))
    rw [Int.log_of_one_le_right 2 (by rwa [abs_of_pos (by linarith)]), zpow_natCast]
    exact one_le_pow₀ (by norm_num)
  fract_round_le x h := by
    obtain ⟨m, hm⟩ := exists_toDouble_eq h
    have hlt : m % (2 ^ 52 : Nat) + 1 ≤ (2 ^ 52 : Nat) := Int.emod_lt_of_pos m (by norm_num)
    have hlt' : ((m % (2 ^ 52 : Nat) : Int) : ℚ) + 1 ≤ (2 ^ 52 : Nat) := by exact_mod_cast hlt
    rw [hm, Int.fract_div_intCast_eq_div_intCast_mod, div_le_iff₀ (by norm_num)]
    push_cast at hlt' ⊢
    linarith
  round_natCast _ := toDouble_natCast

/-! ### Laws -/

variable (R : Rounding)

theorem round_le {x : ℚ} (h : 0 ≤ x) : R.round x ≤ (1 + R.unit) * x := by
  have := (abs_le.mp (R.abs_round_sub_le x h)).2
  linarith

theorem round_nonneg {x : ℚ} (h : 0 ≤ x) : 0 ≤ R.round x := by
  have hle := (abs_le.mp (R.abs_round_sub_le x h)).1
  have hunit : R.unit ≤ 1 := R.unit_le.trans (by norm_num)
  nlinarith

theorem round_zero : R.round 0 = 0 := by exact_mod_cast R.round_natCast 0 (by norm_num)

theorem round_eq_zero_iff {x : ℚ} (h : 0 ≤ x) : R.round x = 0 ↔ x = 0 := by
  constructor
  · intro hz
    have hle := (abs_le.mp (R.abs_round_sub_le x h)).1
    have hunit : R.unit ≤ 1 / 2 := R.unit_le.trans (by norm_num)
    rw [hz] at hle
    nlinarith
  · rintro rfl
    exact R.round_zero

/-! ### Division with rest -/

variable (a b : Nat)

def multiple : Nat := (truncate (R.round (a / b))).toNat

/-- What the quotient has behind the point. -/
def fraction : ℚ := R.round (R.round (a / b) - R.multiple a b)

/-- The fraction of the divisor that is left over, cut to a whole number. -/
def rest : Nat := (truncate (R.round (R.fraction a b * b))).toNat

theorem round_div_sub_multiple :
    R.round (a / b) - R.multiple a b = Int.fract (R.round (a / b)) := by
  have hnonneg : 0 ≤ R.round (a / b) := R.round_nonneg (by positivity)
  have hcast : ((R.multiple a b : Nat) : Int) = ⌊R.round (a / b)⌋ := by
    rw [multiple, truncate_of_nonneg hnonneg, Int.toNat_of_nonneg (Int.floor_nonneg.mpr hnonneg)]
  rw [Int.fract, ← hcast, Int.cast_natCast]

theorem fraction_eq : R.fraction a b = R.round (Int.fract (R.round (a / b))) := by
  rw [fraction, round_div_sub_multiple]

theorem fraction_nonneg : 0 ≤ R.fraction a b := by
  rw [fraction_eq]
  exact R.round_nonneg (Int.fract_nonneg _)

variable {a b}

theorem rest_of_fraction (h : R.fraction a b = 0) : R.rest a b = 0 := by
  rw [rest, h, zero_mul, round_zero]
  rfl

theorem multiple_pos (hb : 0 < b) (h : b ≤ a) : 0 < R.multiple a b := by
  have hone : 1 ≤ R.round (a / b) := by
    apply R.one_le_round
    rw [one_le_div (by exact_mod_cast hb)]
    exact_mod_cast h
  have hfloor : (1 : Int) ≤ ⌊R.round (a / b)⌋ := Int.le_floor.mpr (by exact_mod_cast hone)
  rw [multiple, truncate_of_nonneg (by linarith)]
  omega

/-- **The rest stays below the divisor.**  Two more roundings do not close the gap that
the quotient leaves to the next whole number. -/
theorem rest_lt (hb : 0 < b) (h : b ≤ a) : R.rest a b < b := by
  have hb' : (0 : ℚ) < b := by exact_mod_cast hb
  have hone : (1 : ℚ) ≤ a / b := by
    rw [one_le_div hb']
    exact_mod_cast h
  have hfract0 := Int.fract_nonneg (R.round (a / b))
  have hgap : (1 + R.unit) * ((1 + R.unit) * Int.fract (R.round (a / b))) < 1 := by
    have hle := R.fract_round_le _ hone
    rcases R.unit_nonneg.eq_or_lt with hu | hu
    · rw [← hu, add_zero, one_mul, one_mul]
      exact Int.fract_lt_one _
    · have hscaled : (1 + R.unit) * ((1 + R.unit) * Int.fract (R.round (a / b))) ≤
          (1 + R.unit) * ((1 + R.unit) * (1 - 2 * R.unit)) := by gcongr
      have hexpand : (1 + R.unit) * ((1 + R.unit) * (1 - 2 * R.unit)) =
          1 - (3 * R.unit ^ 2 + 2 * R.unit ^ 3) := by ring
      have hpos : 0 < 3 * R.unit ^ 2 + 2 * R.unit ^ 3 := by positivity
      linarith
  have hfraction : R.fraction a b ≤ (1 + R.unit) * Int.fract (R.round (a / b)) := by
    rw [fraction_eq]
    exact R.round_le hfract0
  have hnonneg : 0 ≤ R.fraction a b * b := mul_nonneg (R.fraction_nonneg a b) hb'.le
  have hlt : R.round (R.fraction a b * b) < b := by
    have hunit := R.unit_nonneg
    calc R.round (R.fraction a b * b) ≤ (1 + R.unit) * (R.fraction a b * b) := R.round_le hnonneg
      _ ≤ (1 + R.unit) * ((1 + R.unit) * Int.fract (R.round (a / b)) * b) := by gcongr
      _ = (1 + R.unit) * ((1 + R.unit) * Int.fract (R.round (a / b))) * b := by ring
      _ < 1 * b := by gcongr
      _ = b := one_mul _
  have hfloor : ⌊R.round (R.fraction a b * b)⌋ < (b : Int) :=
    Int.floor_lt.mpr (by exact_mod_cast hlt)
  rw [rest, truncate_of_nonneg (R.round_nonneg hnonneg)]
  omega

/-- **No fraction is left exactly when the division comes out even.** -/
theorem fraction_eq_zero_iff (ha : a < 2 ^ 53) (hb : 0 < b) : R.fraction a b = 0 ↔ b ∣ a := by
  have hb' : (0 : ℚ) < b := by exact_mod_cast hb
  rw [fraction_eq, R.round_eq_zero_iff (Int.fract_nonneg _)]
  constructor
  · intro hz
    obtain ⟨z, hzq⟩ := Int.fract_eq_zero_iff.mp hz
    have herror := R.abs_round_sub_le (a / b) (by positivity)
    have hscaled : |(z : ℚ) * b - a| < 1 := by
      have hsplit : (z : ℚ) * b - a = (z - a / b) * b := by field_simp
      have hunit : R.unit * a < 1 := by
        have ha' : (a : ℚ) < 2 ^ 53 := by exact_mod_cast ha
        have hu := R.unit_le
        have hu0 := R.unit_nonneg
        nlinarith
      rw [hsplit, abs_mul, abs_of_pos hb']
      calc |(z : ℚ) - a / b| * b ≤ R.unit * (a / b) * b := by rw [hzq]; gcongr
        _ = R.unit * a := by field_simp
        _ < 1 := hunit
    have hzero : z * b - a = 0 := Int.abs_lt_one_iff.mp (by exact_mod_cast hscaled)
    exact Int.natCast_dvd_natCast.mp ⟨z, by linarith⟩
  · rintro ⟨c, rfl⟩
    have hc : c < 2 ^ 53 := lt_of_le_of_lt (Nat.le_mul_of_pos_left c hb) ha
    rw [Nat.cast_mul, mul_div_cancel_left₀ _ hb'.ne', R.round_natCast c hc, Int.fract_natCast]

/-! ### Exact arithmetic -/

theorem exact_multiple : exact.multiple a b = a / b := by
  rw [multiple]
  show (truncate ((a : ℚ) / b)).toNat = _
  rw [truncate_div, Int.toNat_natCast]

theorem exact_fraction : exact.fraction a b = (a % b : Nat) / b := by
  rw [fraction_eq]
  exact Int.fract_div_natCast_eq_div_natCast_mod

theorem exact_rest (hb : 0 < b) : exact.rest a b = a % b := by
  have hb' : (b : ℚ) ≠ 0 := by exact_mod_cast hb.ne'
  rw [rest, exact_fraction, div_mul_cancel₀ _ hb']
  show (truncate ((a % b : Nat) : ℚ)).toNat = _
  rw [truncate_natCast, Int.toNat_natCast]

/-- 2300 ms of a sound of one second leave 299 of them, and 1001 ms leave none. -/
example : double.rest 2300 1000 = 299 ∧ double.rest 1001 1000 = 0 := by decide +kernel

end Rounding

end Orbiter.Cxx
