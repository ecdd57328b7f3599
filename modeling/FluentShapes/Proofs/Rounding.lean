import FluentShapes.Numeral.Binary64
import Mathlib

/-!
# Rounding to 64 bits

A quotient is rounded to a multiple of the spacing around it, and the spacing is a `2 ^ 52`th part
of the quotient or one unit.  So what is read of a quotient is off by a `2 ^ 53`th part of it and
half a unit at the most (`nearest_le`, `le_nearest`).  Decimals of up to 15 digits are further apart
than that: on a decimal grid no other point is read as the same magnitude (`nearest_inj`).
-/

namespace FluentShapes.Binary64

/-! ## The nearest whole number -/

section RoundDiv

variable (num : Nat) {den k : Nat}

theorem roundDiv_le (h : 0 < den) : 2 * (roundDiv num den * den) ≤ 2 * num + den := by
  have hdiv : num / den * den + num % den = num := Nat.div_add_mod' num den
  have hmod := Nat.mod_lt num h
  have hparity := Nat.mod_two_eq_zero_or_one (num / den)
  unfold roundDiv
  dsimp only
  split_ifs
  · omega
  · rw [Nat.add_mul]
    omega
  · rw [Nat.add_mul]
    rcases hparity with hq | hq <;> rw [hq] <;> omega

theorem le_roundDiv (h : 0 < den) : 2 * num ≤ 2 * (roundDiv num den * den) + den := by
  have hdiv : num / den * den + num % den = num := Nat.div_add_mod' num den
  have hmod := Nat.mod_lt num h
  unfold roundDiv
  dsimp only
  split_ifs
  · omega
  · rw [Nat.add_mul]
    omega
  · rw [Nat.add_mul]
    omega

theorem roundDiv_mul_right (hk : 0 < k) : roundDiv (num * k) (den * k) = roundDiv num den := by
  have hlt : ∀ a b : Nat, a * k < b * k ↔ a < b := fun a b ↦ Nat.mul_lt_mul_right hk
  simp only [roundDiv, Nat.mul_div_mul_right num den hk, Nat.mul_mod_mul_right, ← Nat.mul_assoc,
    hlt]

end RoundDiv

/-! ## Spacing -/

theorem spacing_mul_le (units : Nat) : spacing units * 2 ^ 52 ≤ units + 2 ^ 52 := by
  unfold spacing precision
  rw [Nat.pow_eq]
  by_cases h : units.log2 + 1 ≤ 53
  · rw [Nat.sub_eq_zero_of_le h]
    omega
  · have hne : units ≠ 0 := by
      rintro rfl
      simp at h
    have hexponent : units.log2 + 1 - 53 + 52 = units.log2 := by omega
    rw [← Nat.pow_add, hexponent]
    have hself := Nat.log2_self_le hne
    omega

theorem spacing_pos (units : Nat) : 0 < spacing units := Nat.pow_pos (by decide)

/-! ## The nearest magnitude -/

/-- The number of units in one. -/
def one : Nat := Nat.pow 2 unitBits

section Nearest

variable (num : Nat) {den k : Nat}

theorem nearest_mul_right (hk : 0 < k) : nearest (num * k) (den * k) = nearest num den := by
  have hscaled : num * k * Nat.pow 2 unitBits = num * Nat.pow 2 unitBits * k := by ring
  have hden : ∀ step, den * k * step = den * step * k := fun step ↦ by ring
  simp only [nearest, hscaled, Nat.mul_div_mul_right _ den hk, hden, roundDiv_mul_right _ hk]

/-- The spacing around a quotient. -/
def step (num den : Nat) : Nat := spacing (num * one / den)

theorem nearest_eq (num den : Nat) :
    nearest num den = roundDiv (num * one) (den * step num den) * step num den := by
  unfold nearest step one
  with_reducible rfl

theorem nearest_mul (num den : Nat) :
    nearest num den * den =
      roundDiv (num * one) (den * step num den) * (den * step num den) := by
  rw [nearest_eq]
  ring

theorem step_mul_le (num den : Nat) :
    den * step num den * 2 ^ 52 ≤ num * one + den * 2 ^ 52 := by
  have hspacing := Nat.mul_le_mul_left den (spacing_mul_le (num * one / den))
  have hdiv := Nat.mul_div_le (num * one) den
  rw [Nat.mul_add] at hspacing
  rw [step, Nat.mul_assoc]
  omega

theorem step_pos (num den : Nat) : 0 < step num den := spacing_pos (num * one / den)

/-- What is read is at most a `2 ^ 53`th part and half a unit too great. -/
theorem nearest_le (hden : 0 < den) :
    2 ^ 53 * (nearest num den * den) ≤ (2 ^ 53 + 1) * (num * one) + 2 ^ 52 * den := by
  have hround := roundDiv_le (num * one) (Nat.mul_pos hden (step_pos num den))
  have hstep := step_mul_le num den
  rw [← nearest_mul] at hround
  omega

/-- What is read is at most a `2 ^ 53`th part and half a unit too small. -/
theorem le_nearest (hden : 0 < den) :
    2 ^ 53 * (num * one) ≤ 2 ^ 53 * (nearest num den * den) + num * one + 2 ^ 52 * den := by
  have hround := le_roundDiv (num * one) (Nat.mul_pos hden (step_pos num den))
  have hstep := step_mul_le num den
  rw [← nearest_mul] at hround
  omega

end Nearest

/-! ## Decimals of up to 15 digits -/

section Short

variable {c places : Nat} (hc : c < 10 ^ 15) (hplaces : places ≤ 15)

include hplaces in
theorem two_mul_pow_lt_one : 2 * 10 ^ places < one := by
  have hpow : 10 ^ places ≤ 10 ^ 15 := Nat.pow_le_pow_right (by decide) hplaces
  have hone : 2 * 10 ^ 15 < one := by decide +kernel
  omega

include hc in
theorem mul_one_le : c * one ≤ (10 ^ 15 - 1) * one := Nat.mul_le_mul_right one (by omega)

include hc hplaces

/-- What is read is less than a step of the grid too great. -/
theorem nearest_mul_lt : nearest c (10 ^ places) * 10 ^ places < c * one + one := by
  have hpow : 0 < 10 ^ places := Nat.pow_pos (by decide)
  have hle := nearest_le c hpow
  have hone := two_mul_pow_lt_one hplaces
  have hmul := mul_one_le hc
  omega

/-- What is read is less than a step of the grid too small. -/
theorem lt_nearest_mul : c * one < nearest c (10 ^ places) * 10 ^ places + one := by
  have hpow : 0 < 10 ^ places := Nat.pow_pos (by decide)
  have hge := le_nearest c hpow
  have hone := two_mul_pow_lt_one hplaces
  have hmul := mul_one_le hc
  omega

theorem nearest_inj {c' : Nat} (h : nearest c' (10 ^ places) = nearest c (10 ^ places)) :
    c' = c := by
  have hpow : 0 < 10 ^ places := Nat.pow_pos (by decide)
  have hle := nearest_le c hpow
  have hge := le_nearest c hpow
  have hle' := nearest_le c' hpow
  have hge' := le_nearest c' hpow
  have hone := two_mul_pow_lt_one hplaces
  have hmul := mul_one_le hc
  rw [h] at hle' hge'
  -- The two are a step of the grid apart, and neither is a quarter of a step away from the reading.
  rcases Nat.lt_trichotomy c' c with hlt | heq | hlt
  · have hstep := Nat.mul_le_mul_right one hlt
    rw [Nat.succ_mul] at hstep
    omega
  · exact heq
  · have hstep := Nat.mul_le_mul_right one hlt
    rw [Nat.succ_mul] at hstep
    omega

end Short

end FluentShapes.Binary64
