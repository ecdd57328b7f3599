import FluentShapes.Proofs.Shortest

/-!
# Representable magnitudes and their shortest numerals

A magnitude is representable if it is a multiple of the spacing around it.  Rounding gives such
magnitudes only (`representable_nearest`) and leaves them alone (`nearest_of_representable`), so
each is read of its exact decimal (`reads_exact`).  The search for the shortest numeral takes
nothing that is not read as the magnitude, and falls back on the exact decimal.  So its result is
always read as the magnitude that it was searched for (`reads_shortest`).
-/

namespace FluentShapes.Binary64

/-! ## Multiples of the spacing -/

def Representable (units : Nat) : Prop := spacing units ∣ units

theorem spacing_eq (units : Nat) : spacing units = 2 ^ (units.log2 + 1 - 53) := Nat.pow_eq

/-- A number takes no more bits than the spacing around it and a significand. -/
theorem lt_spacing_mul (units : Nat) : units < 2 ^ 53 * spacing units := by
  rw [spacing_eq, ← Nat.pow_add]
  exact Nat.lt_log2_self.trans_le (Nat.pow_le_pow_right (by decide) (by omega))

theorem representable_of_lt {m k : Nat} (h : m < 2 ^ 53) : Representable (m * 2 ^ k) := by
  by_cases hm : m = 0
  · subst hm
    exact ⟨0, by simp⟩
  · have hne : m * 2 ^ k ≠ 0 := Nat.mul_ne_zero hm (Nat.two_pow_pos k).ne'
    have hlog : (m * 2 ^ k).log2 < 53 + k := by
      rw [Nat.log2_lt hne, Nat.pow_add]
      exact Nat.mul_lt_mul_of_pos_right h (Nat.two_pow_pos k)
    rw [Representable, spacing_eq]
    exact (Nat.pow_dvd_pow 2 (by omega)).mul_left m

/-- A significand that is rounded up to a power of two still fits. -/
theorem representable_of_le {m k : Nat} (h : m ≤ 2 ^ 53) : Representable (m * 2 ^ k) := by
  rcases Nat.lt_or_eq_of_le h with hlt | rfl
  · exact representable_of_lt hlt
  · have hcarry : 2 ^ 53 * 2 ^ k = 1 * 2 ^ (53 + k) := by rw [← Nat.pow_add, Nat.one_mul]
    rw [hcarry]
    exact representable_of_lt (by decide)

theorem roundDiv_le_succ (num den : Nat) : roundDiv num den ≤ num / den + 1 := by
  have hparity := Nat.mod_two_eq_zero_or_one (num / den)
  unfold roundDiv
  dsimp only
  split_ifs <;> omega

theorem roundDiv_mul_self (n : Nat) {den : Nat} (h : 0 < den) : roundDiv (n * den) den = n := by
  simp only [roundDiv, Nat.mul_div_cancel n h, Nat.mul_mod_left, Nat.mul_zero, if_pos h]

theorem representable_nearest (num den : Nat) : Representable (nearest num den) := by
  -- The significand is below `2 ^ 53` before it is rounded, and so not above it afterwards.
  have hquotient : num * one / (den * step num den) < 2 ^ 53 := by
    rw [← Nat.div_div_eq_div_mul, Nat.div_lt_iff_lt_mul (step_pos num den)]
    exact lt_spacing_mul (num * one / den)
  have hround := roundDiv_le_succ (num * one) (den * step num den)
  rw [nearest_eq, step, spacing_eq]
  rw [step, spacing_eq] at hquotient hround
  exact representable_of_le (by omega)

theorem one_pos : 0 < one := by decide +kernel

/-- What is representable is not rounded. -/
theorem nearest_of_representable {units : Nat} (h : Representable units) :
    nearest units one = units := by
  obtain ⟨m, hm⟩ := h
  have hstep : step units one = spacing units := by rw [step, Nat.mul_div_cancel units one_pos]
  have hscaled : units * one = m * (one * spacing units) := by
    conv_lhs => rw [hm]
    ring
  rw [nearest_eq, hstep, hscaled, roundDiv_mul_self m (Nat.mul_pos one_pos (spacing_pos units)),
    Nat.mul_comm, ← hm]

theorem limit_pos : 0 < limit := by decide +kernel

/-- Whatever is read is a finite magnitude. -/
theorem representable_of_ofDecimal? {c units : Nat} {exponent : Int}
    (h : ofDecimal? c exponent = some units) : Representable units ∧ units < limit := by
  have hzero : Representable 0 ∧ 0 < limit := ⟨⟨0, rfl⟩, limit_pos⟩
  unfold ofDecimal? at h
  dsimp only at h
  split at h
  · cases h
    exact hzero
  · split at h
    · cases h
    · split at h
      · rename_i hlt
        cases h
        exact ⟨representable_nearest _ _, hlt⟩
      · cases h

/-! ## The exact decimal -/

/-- One unit in steps of `10 ^ (-unitBits)`. -/
def unitSteps : Nat := Nat.pow 5 unitBits

theorem unitSteps_pos : 0 < unitSteps := by decide +kernel

theorem exact_eq (units : Nat) : exact units = .trim (units * unitSteps) unitBits := by
  unfold exact unitSteps
  with_reducible rfl

theorem one_mul_unitSteps : one * unitSteps = 10 ^ unitBits := by decide +kernel

theorem lt_pow_decimalLength (n : Nat) : n < 10 ^ decimalLength n := by
  have hpos : 0 < decimalLength n := Nat.length_toDigits_pos
  exact (Nat.length_toDigits_le_iff (by decide) hpos).mp le_rfl

/-- The exact decimal of a magnitude is not too great for its power of ten to be computed. -/
theorem decimalLength_exact_le {units : Nat} (hlt : units < limit) :
    decimalLength (units * unitSteps) ≤ unitBits + 310 := by
  have hpow : limit * unitSteps ≤ 10 ^ (unitBits + 310) := by decide +kernel
  have hmul : units * unitSteps < limit * unitSteps := Nat.mul_lt_mul_of_pos_right hlt unitSteps_pos
  exact decimalLength_le (by decide) (hmul.trans_le hpow)

/-- Nor is it too small. -/
theorem le_decimalLength_exact {units : Nat} (hpos : 0 < units) :
    unitBits ≤ decimalLength (units * unitSteps) + 330 := by
  have hpow : 10 ^ (unitBits - 331) ≤ unitSteps := by decide +kernel
  have hmul : unitSteps ≤ units * unitSteps := Nat.le_mul_of_pos_left unitSteps hpos
  have hlt := (hpow.trans hmul).trans_lt (lt_pow_decimalLength (units * unitSteps))
  have hlength := (Nat.pow_lt_pow_iff_right (by decide)).mp hlt
  omega

/-- A representable magnitude is read of its exact decimal. -/
theorem reads_exact {units : Nat} (h : Representable units) (hlt : units < limit) :
    reads units (exact units) = true := by
  rw [exact_eq, reads_trim_iff, ofDecimal?_neg]
  rcases Nat.eq_zero_or_pos units with rfl | hpos
  · rw [if_pos (.inl (Nat.zero_mul _))]
  · have hne : units * unitSteps ≠ 0 := (Nat.mul_pos hpos unitSteps_pos).ne'
    have hgreat := decimalLength_exact_le hlt
    have hsmall := le_decimalLength_exact hpos
    rw [if_neg (by omega), if_neg (by omega), ← one_mul_unitSteps,
      nearest_mul_right units unitSteps_pos, nearest_of_representable h, if_pos hlt]

/-! ## The search -/

/-- The search ends with a decimal without zeros at its end, which is read as the magnitude. -/
theorem reads_shortest {units : Nat} (h : Representable units) (hlt : units < limit) :
    reads units (shortest units) = true ∧ ∃ c places, shortest units = .trim c places := by
  rw [shortest]
  cases hwhole : (List.range (decimalLength (units / Nat.pow 2 unitBits) + 1)).reverse.findSome?
      (onWholeGrid? units) with
  | some d =>
      obtain ⟨zeros, -, hd⟩ := List.exists_of_findSome?_eq_some hwhole
      obtain ⟨hreads, n, rfl⟩ := of_onWholeGrid? hd
      exact ⟨hreads, n, 0, rfl⟩
  | none =>
      cases hfraction : (List.range unitBits).findSome? fun places ↦
          onFractionGrid? units (places + 1) with
      | some d =>
          obtain ⟨places, -, hd⟩ := List.exists_of_findSome?_eq_some hfraction
          obtain ⟨hreads, n, rfl⟩ := of_onFractionGrid? hd
          exact ⟨hreads, n, places + 1, rfl⟩
      | none =>
          rw [Option.orElse_none, Option.getD_none]
          exact ⟨reads_exact h hlt, units * unitSteps, unitBits, exact_eq units⟩

end FluentShapes.Binary64
