import Orbiter.Cxx.Strings
import Mathlib.Data.Rat.Floor
import Mathlib.Tactic.Linarith
import Mathlib.Tactic.FieldSimp

/-!
# Truncation

The conversion of a floating-point value to an integer cuts off the fraction.  Scaled
before or after it, a value loses its fraction or keeps it.

* `truncate_neg`: truncation is odd.
* `truncate_mul_truncate_iff`: **truncating before a scaling of at least `n` is harmless
  for the `n`-ths exactly when they are whole.**
* `truncate_mul_inj`: scaling by at least one keeps integers apart.
-/

namespace Orbiter.Cxx

theorem truncate_of_nonneg {x : ℚ} (h : 0 ≤ x) : truncate x = ⌊x⌋ := if_pos h

/-- Two values are cut to the same integer when no integer lies between them. -/
theorem truncate_eq_truncate_iff {x y : ℚ} (hx : 0 ≤ x) (hy : 0 ≤ y) :
    truncate x = truncate y ↔ ∀ n : Int, (n : ℚ) ≤ x ↔ (n : ℚ) ≤ y := by
  rw [truncate_of_nonneg hx, truncate_of_nonneg hy]
  constructor
  · intro h n
    rw [← Int.le_floor, h, Int.le_floor]
  · intro h
    apply le_antisymm
    · exact Int.le_floor.mpr ((h _).mp (Int.floor_le x))
    · exact Int.le_floor.mpr ((h _).mpr (Int.floor_le y))

/-- **Truncation is odd.** -/
theorem truncate_neg (x : ℚ) : truncate (-x) = -truncate x := by
  rw [truncate, truncate]
  rcases lt_trichotomy x 0 with hx | rfl | hx
  · rw [if_pos (by linarith), if_neg (by linarith), neg_neg]
  · rfl
  · rw [if_neg (by linarith), if_pos (by linarith), neg_neg]

theorem abs_truncate_le (x : ℚ) : |(truncate x : ℚ)| ≤ |x| := by
  have hnonneg : ∀ y : ℚ, 0 ≤ y → |(truncate y : ℚ)| ≤ |y| := by
    intro y hy
    have hfloor : (0 : ℚ) ≤ ⌊y⌋ := by exact_mod_cast Int.floor_nonneg.mpr hy
    rw [truncate_of_nonneg hy, abs_of_nonneg hfloor, abs_of_nonneg hy]
    exact Int.floor_le y
  rcases le_total 0 x with hx | hx
  · exact hnonneg x hx
  · have hneg := hnonneg (-x) (by linarith)
    rw [truncate_neg] at hneg
    push_cast at hneg
    rwa [abs_neg, abs_neg] at hneg

theorem truncate_lt_truncate {x y : ℚ} (hx : 0 ≤ x) (h : x + 1 ≤ y) :
    truncate x < truncate y := by
  rw [truncate_of_nonneg hx, truncate_of_nonneg (by linarith)]
  have hfloor : ⌊x + 1⌋ ≤ ⌊y⌋ := Int.floor_le_floor h
  rw [Int.floor_add_one] at hfloor
  omega

theorem truncate_mul_lt_truncate_mul {c : ℚ} (hc : 1 ≤ c) {a b : Int} (hab : a < b) :
    truncate (c * a) < truncate (c * b) := by
  have hstep : ∀ a b : Int, 0 ≤ a → a < b → truncate (c * a) < truncate (c * b) := by
    intro a b ha hab
    have ha' : (0 : ℚ) ≤ a := by exact_mod_cast ha
    have hab' : (a : ℚ) + 1 ≤ b := by exact_mod_cast hab
    apply truncate_lt_truncate (by positivity)
    nlinarith
  have hneg : ∀ a : Int, truncate (c * a) = -truncate (c * (-a : Int)) := by
    intro a
    rw [Int.cast_neg, mul_neg, truncate_neg, neg_neg]
  rcases le_or_gt 0 a with ha | ha
  · exact hstep a b ha hab
  · rcases le_or_gt b 0 with hb | hb
    · rw [hneg a, hneg b]
      have := hstep (-b) (-a) (by omega) (by omega)
      omega
    · have ha0 := hstep 0 (-a) le_rfl (by omega)
      have hb0 := hstep 0 b le_rfl hb
      rw [hneg a]
      rw [Int.cast_zero, mul_zero, show truncate 0 = 0 from rfl] at ha0 hb0
      omega

theorem truncate_mul_inj {c : ℚ} (hc : 1 ≤ c) {a b : Int} :
    truncate (c * a) = truncate (c * b) ↔ a = b := by
  have hmono : StrictMono fun n : Int => truncate (c * n) :=
    fun _ _ hab => truncate_mul_lt_truncate_mul hc hab
  exact hmono.injective.eq_iff

theorem truncate_div (a b : Nat) : truncate ((a : ℚ) / b) = (a / b : Nat) := by
  rw [truncate_of_nonneg (by positivity)]
  exact Rat.floor_natCast_div_natCast a b

/-- A fraction that is cut off is missed behind the scaling. -/
theorem truncate_mul_div_lt {c : ℚ} {n : Nat} (hn : 0 < n) (hc : n ≤ c) {m : Nat}
    (h : ¬ n ∣ m) : truncate (c * (m / n : Nat)) < truncate (c * (m / n)) := by
  have hn' : (0 : ℚ) < n := by exact_mod_cast hn
  have hrest : (1 : ℚ) ≤ (m % n : Nat) := by
    exact_mod_cast Nat.pos_of_ne_zero fun h0 => h (Nat.dvd_of_mod_eq_zero h0)
  have hsplit : (m : ℚ) = n * (m / n : Nat) + (m % n : Nat) := by
    exact_mod_cast (Nat.div_add_mod m n).symm
  have hscaled : c * (m / n) = c * (m / n : Nat) + c / n * (m % n : Nat) := by
    nth_rewrite 1 [hsplit]
    field_simp
  have hone : 1 ≤ c / n := (one_le_div hn').mpr hc
  have hc0 : 0 ≤ c := le_trans hn'.le hc
  apply truncate_lt_truncate
  · exact mul_nonneg hc0 (Nat.cast_nonneg _)
  · rw [hscaled]
    nlinarith

/-- **Truncating before a scaling of at least `n` is harmless for the `n`-ths exactly
when they are whole.** -/
theorem truncate_mul_truncate_iff {c : ℚ} {n : Nat} (hn : 0 < n) (hc : n ≤ c) (h : Int) :
    truncate (c * truncate (h / n)) = truncate (c * (h / n)) ↔ (n : Int) ∣ h := by
  have hnat : ∀ m : Nat, truncate (c * truncate (m / n)) = truncate (c * (m / n)) ↔ n ∣ m := by
    intro m
    rw [truncate_div]
    constructor
    · intro he
      by_contra hdvd
      exact absurd he (ne_of_lt (truncate_mul_div_lt hn hc hdvd))
    · intro hdvd
      obtain ⟨k, rfl⟩ := hdvd
      have hn' : (n : ℚ) ≠ 0 := by exact_mod_cast hn.ne'
      rw [Nat.mul_div_cancel_left _ hn, Nat.cast_mul, mul_div_cancel_left₀ _ hn',
        Int.cast_natCast]
  obtain ⟨m, rfl | rfl⟩ := h.eq_nat_or_neg
  · rw [Int.natCast_dvd_natCast]
    exact hnat m
  · rw [Int.dvd_neg, Int.natCast_dvd_natCast, ← hnat m]
    rw [Int.cast_neg, Int.cast_natCast, neg_div, truncate_neg, Int.cast_neg, mul_neg, mul_neg,
      truncate_neg, truncate_neg, neg_inj]

end Orbiter.Cxx
