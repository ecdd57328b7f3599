import FluentShapes.Numeral.Shortest
import FluentShapes.Proofs.Decimal
import FluentShapes.Proofs.Rounding

/-!
# Decimals of up to 15 digits are their own shortest numerals

The search for the shortest numeral of a magnitude goes through decimal grids, the coarsest first,
and on each it looks at the two points around the magnitude.  If the magnitude was read of a short
decimal, then on the grids that are no finer than this decimal it is the only point that can be
found (`trim_eq_of_reads`), and on its own grid it is one of the two points (`self_mem_neighbours`).
-/

namespace FluentShapes.Binary64

/-! ## Reading a decimal -/

theorem decimalLength_mul_ten {n : Nat} (h : n ≠ 0) :
    decimalLength (n * 10) = decimalLength n + 1 := by
  have hdigits := Nat.toDigits_append_toDigits (by decide : 1 < 10) (Nat.pos_of_ne_zero h)
    (by decide : 0 < 10)
  rw [decimalLength, Nat.mul_comm, ← Nat.add_zero (10 * n), ← hdigits]
  exact List.length_append

theorem decimalLength_le {n k : Nat} (hk : 0 < k) (h : n < 10 ^ k) : decimalLength n ≤ k :=
  (Nat.length_toDigits_le_iff (by decide) hk).mpr h

/-- What is read of a decimal. -/
theorem ofDecimal?_neg (c places : Nat) :
    ofDecimal? c (-places) =
      if c = 0 ∨ decimalLength c + 330 < places then some 0
      else if places + 310 < decimalLength c then none
      else if nearest c (10 ^ places) < limit then some (nearest c (10 ^ places)) else none := by
  have hsmall : (decimalLength c : Int) + -places < -330 ↔ decimalLength c + 330 < places := by
    omega
  have hgreat : 310 < (decimalLength c : Int) + -places ↔ places + 310 < decimalLength c := by
    omega
  have hnum : (-(places : Int)).toNat = 0 := by omega
  have hden : (-(-(places : Int))).toNat = places := by omega
  simp only [ofDecimal?, Bool.or_eq_true, decide_eq_true_eq, hsmall, hgreat, hnum, hden, Nat.pow_eq,
    Nat.pow_zero, Nat.mul_one]

theorem ofDecimal?_mul_ten (c places : Nat) :
    ofDecimal? (c * 10) (-(places + 1 : Nat)) = ofDecimal? c (-places) := by
  rw [ofDecimal?_neg, ofDecimal?_neg]
  by_cases hc : c = 0
  · subst hc
    rfl
  · rw [decimalLength_mul_ten hc, Nat.pow_succ, nearest_mul_right c (by decide)]
    have hzero : c * 10 = 0 ↔ c = 0 := by omega
    have hsmall : decimalLength c + 1 + 330 < places + 1 ↔ decimalLength c + 330 < places := by
      omega
    have hgreat : places + 1 + 310 < decimalLength c + 1 ↔ places + 310 < decimalLength c := by
      omega
    simp only [hzero, hsmall, hgreat]

/-- Zeros at the end of a fraction do not count. -/
theorem ofDecimal?_trim (c places : Nat) :
    ofDecimal? (Decimal.trim c places).coefficient (-(Decimal.trim c places).places) =
      ofDecimal? c (-places) := by
  fun_induction Decimal.trim c places with
  | case1 c => rfl
  | case2 c places hmod ih =>
      have hten : c / 10 * 10 = c := by omega
      rw [ih, ← ofDecimal?_mul_ten, hten]
  | case3 c places hmod => rfl

theorem reads_trim_iff (units c places : Nat) :
    reads units (.trim c places) = true ↔ ofDecimal? c (-places) = some units := by
  rw [reads, decide_eq_true_eq, ofDecimal?_trim]

theorem nearest_of_ofDecimal? {units c places : Nat} (h : ofDecimal? c (-places) = some units)
    (hpos : 0 < units) : nearest c (10 ^ places) = units := by
  rw [ofDecimal?_neg] at h
  split_ifs at h
  · cases h
    exact absurd hpos (Nat.lt_irrefl 0)
  · exact Option.some.inj h

section Short

variable {c places : Nat} (hc : c < 10 ^ 15) (hplaces : places ≤ 15)

include hc hplaces

theorem nearest_lt_limit : nearest c (10 ^ places) < limit := by
  have hlt := nearest_mul_lt hc hplaces
  have hone : 10 ^ 15 * one ≤ limit := by decide +kernel
  have hmul : (c + 1) * one ≤ 10 ^ 15 * one := Nat.mul_le_mul_right one hc
  have hself := Nat.le_mul_of_pos_right (nearest c (10 ^ places))
    (Nat.pow_pos (n := places) (by decide : 0 < 10))
  rw [Nat.succ_mul] at hmul
  omega

theorem nearest_pos (hpos : 0 < c) : 0 < nearest c (10 ^ places) := by
  have hlt := lt_nearest_mul hc hplaces
  have hone := Nat.le_mul_of_pos_left one hpos
  rw [Nat.pos_iff_ne_zero]
  intro hzero
  rw [hzero, Nat.zero_mul] at hlt
  omega

theorem ofDecimal?_of_lt (hpos : 0 < c) :
    ofDecimal? c (-places) = some (nearest c (10 ^ places)) := by
  have hlength := decimalLength_le (by decide) hc
  rw [ofDecimal?_neg, if_neg (by omega), if_neg (by omega), if_pos (nearest_lt_limit hc hplaces)]

end Short

/-! ## Grids -/

theorem mem_neighbours_iff (units num den n : Nat) :
    n ∈ neighbours units num den ↔ n = units * den / num ∨ n = units * den / num + 1 := by
  unfold neighbours
  dsimp only
  split_ifs
  · simp
  · simp [or_comm]

/-- A multiple that is less than a step away is one of the two neighbours. -/
theorem mem_neighbours {units num den n : Nat} (hlt : units * den < n * num + num)
    (hgt : n * num < units * den + num) : n ∈ neighbours units num den := by
  have hnum : 0 < num := by omega
  have hle : units * den / num < n + 1 := by
    rw [Nat.div_lt_iff_lt_mul hnum, Nat.succ_mul]
    exact hlt
  have hge : n < units * den / num + 2 := by
    by_contra hfar
    have hmul := Nat.mul_le_mul_right num (Nat.le_of_not_lt hfar)
    have hmod := Nat.lt_div_mul_add (a := units * den) hnum
    rw [Nat.add_mul] at hmul
    omega
  rw [mem_neighbours_iff]
  omega

theorem onWholeGrid?_eq (units zeros : Nat) :
    onWholeGrid? units zeros =
      ((neighbours units (one * 10 ^ zeros) 1).map fun n ↦ .trim (n * 10 ^ zeros) 0).find?
        (reads units) := by
  unfold onWholeGrid? one Decimal.trim
  simp only [Nat.pow_eq]

theorem onFractionGrid?_eq (units places : Nat) :
    onFractionGrid? units places =
      ((neighbours units one (10 ^ places)).map fun n ↦ .trim n places).find? (reads units) := by
  unfold onFractionGrid? one
  simp only [Nat.pow_eq]

/-- The grid of the whole numbers is the finest of its kind, and the coarsest of the other. -/
theorem onWholeGrid?_zero (units : Nat) : onWholeGrid? units 0 = onFractionGrid? units 0 := by
  simp only [onWholeGrid?_eq, onFractionGrid?_eq, Nat.pow_zero, Nat.mul_one]

theorem of_onWholeGrid? {units zeros : Nat} {d : Decimal} (h : onWholeGrid? units zeros = some d) :
    reads units d = true ∧ ∃ n, d = .trim n 0 := by
  rw [onWholeGrid?_eq] at h
  refine ⟨List.find?_some h, ?_⟩
  obtain ⟨n, -, rfl⟩ := List.mem_map.mp (List.mem_of_find?_eq_some h)
  exact ⟨n * 10 ^ zeros, rfl⟩

theorem of_onFractionGrid? {units places : Nat} {d : Decimal}
    (h : onFractionGrid? units places = some d) :
    reads units d = true ∧ ∃ n, d = .trim n places := by
  rw [onFractionGrid?_eq] at h
  refine ⟨List.find?_some h, ?_⟩
  obtain ⟨n, -, rfl⟩ := List.mem_map.mp (List.mem_of_find?_eq_some h)
  exact ⟨n, rfl⟩

/-- A search ends with the only thing that there is to find. -/
theorem findSome?_of_unique {α β : Type} {l : List α} {g : α → Option β} {b : β}
    (hunique : ∀ a ∈ l, ∀ b', g a = some b' → b' = b) (hfound : ∃ a ∈ l, (g a).isSome = true) :
    l.findSome? g = some b := by
  cases h : l.findSome? g with
  | none =>
      obtain ⟨a, ha, hsome⟩ := hfound
      rw [List.findSome?_eq_none_iff.mp h a ha] at hsome
      cases hsome
  | some b' =>
      obtain ⟨a, ha, hb'⟩ := List.exists_of_findSome?_eq_some h
      rw [hunique a ha b' hb']

section Short

variable {c places : Nat} (hc : c < 10 ^ 15) (hplaces : places ≤ 15)

include hc hplaces

theorem self_mem_neighbours : c ∈ neighbours (nearest c (10 ^ places)) one (10 ^ places) :=
  mem_neighbours (nearest_mul_lt hc hplaces) (lt_nearest_mul hc hplaces)

variable (hpos : 0 < c)

include hpos

/-- On a grid that is no finer than the decimal nothing else is read as the same magnitude. -/
theorem trim_eq_of_reads {n p : Nat} (hp : p ≤ places)
    (h : reads (nearest c (10 ^ places)) (.trim n p) = true) :
    Decimal.trim n p = .trim c places := by
  obtain ⟨zeros, rfl⟩ := Nat.exists_eq_add_of_le hp
  have hread := nearest_of_ofDecimal? ((reads_trim_iff _ n p).mp h) (nearest_pos hc hplaces hpos)
  rw [← nearest_mul_right n (Nat.pow_pos (n := zeros) (by decide : 0 < 10)), ← Nat.pow_add] at hread
  rw [← nearest_inj hc hplaces hread, Decimal.trim_mul_pow]

theorem reads_trim : reads (nearest c (10 ^ places)) (.trim c places) = true :=
  (reads_trim_iff _ c places).mpr (ofDecimal?_of_lt hc hplaces hpos)

theorem isSome_onFractionGrid? :
    (onFractionGrid? (nearest c (10 ^ places)) places).isSome = true := by
  rw [onFractionGrid?_eq, List.find?_isSome]
  exact ⟨.trim c places, List.mem_map_of_mem (self_mem_neighbours hc hplaces),
    reads_trim hc hplaces hpos⟩

/-- The shortest numeral that is read as what is read of a short decimal is that decimal itself. -/
theorem shortest_nearest : shortest (nearest c (10 ^ places)) = .trim c places := by
  have hwhole : ∀ zeros d, onWholeGrid? (nearest c (10 ^ places)) zeros = some d →
      d = .trim c places := by
    intro zeros d hd
    obtain ⟨hreads, n, rfl⟩ := of_onWholeGrid? hd
    exact trim_eq_of_reads hc hplaces hpos (Nat.zero_le places) hreads
  have hfraction : ∀ p < places, ∀ d, onFractionGrid? (nearest c (10 ^ places)) (p + 1) = some d →
      d = .trim c places := by
    intro p hp d hd
    obtain ⟨hreads, n, rfl⟩ := of_onFractionGrid? hd
    exact trim_eq_of_reads hc hplaces hpos hp hreads
  rw [shortest]
  cases hsearch : (List.range (decimalLength (nearest c (10 ^ places) / Nat.pow 2 unitBits)
      + 1)).reverse.findSome? (onWholeGrid? (nearest c (10 ^ places))) with
  | some d =>
      obtain ⟨zeros, -, hd⟩ := List.exists_of_findSome?_eq_some hsearch
      exact hwhole zeros d hd
  | none =>
      -- A whole number would have been found on the grid of the whole numbers at the latest.
      have hne : places ≠ 0 := by
        rintro rfl
        have hzero := List.findSome?_eq_none_iff.mp hsearch 0 (by simp)
        have hsome := isSome_onFractionGrid? hc hplaces hpos
        rw [← onWholeGrid?_zero, hzero] at hsome
        cases hsome
      have hrange : List.range unitBits =
          List.range places ++ (List.range (unitBits - places)).map (places + ·) := by
        rw [← List.range_add, Nat.add_sub_cancel' (hplaces.trans (by decide))]
      have hfound := findSome?_of_unique (fun p hp ↦ hfraction p (List.mem_range.mp hp))
        ⟨places - 1, List.mem_range.mpr (by omega), by
          rw [Nat.sub_add_cancel (Nat.pos_of_ne_zero hne)]
          exact isSome_onFractionGrid? hc hplaces hpos⟩
      rw [hrange, List.findSome?_append, hfound]
      rfl

end Short

end FluentShapes.Binary64
