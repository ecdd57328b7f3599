import FluentShapes.Declaration.Type
import FluentShapes.Proofs.Shortest

/-!
# Number keys of up to 15 digits

A number key is read as a binary number and printed as the shortest numeral that is read as the same
one.  With up to 15 digits, not counting zeros in front, this gives back the digits as they were
written, less the zeros that mean nothing.
-/

namespace FluentShapes

namespace Numeral

/-- A sign, the digits before the point, and the point with the digits behind it, if any. -/
def written (negative : Bool) (whole fraction : List Char) : String :=
  String.ofList ((if negative then ['-'] else []) ++ Decimal.digitsText whole fraction)

/-- The number that a numeral stands for. -/
def value (n : Numeral) : ℚ := (if n.negative then -1 else 1) * n.coefficient * 10 ^ n.exponent

/-! ## Reading -/

section Written

variable (negative : Bool) {whole fraction : List Char} (hne : whole ≠ [])
  (hwhole : ∀ c ∈ whole, c.isDigit = true) (hfraction : ∀ c ∈ fraction, c.isDigit = true)

include hne hwhole

theorem splitSign_written (fraction : List Char) :
    splitSign (written negative whole fraction).toList =
      (negative, Decimal.digitsText whole fraction) := by
  rw [written, String.toList_ofList]
  cases negative with
  | true => rfl
  | false =>
      obtain ⟨c, rest, rfl⟩ := List.exists_cons_of_ne_nil hne
      have hc := hwhole c List.mem_cons_self
      have hminus : c ≠ '-' := by
        rintro rfl
        cases hc
      have hplus : c ≠ '+' := by
        rintro rfl
        cases hc
      simp [Decimal.digitsText, splitSign, hminus, hplus]

omit hne in
theorem takeWhile_digitsText (fraction : List Char) :
    (Decimal.digitsText whole fraction).takeWhile Char.isDigit = whole ∧
      (Decimal.digitsText whole fraction).dropWhile Char.isDigit =
        if fraction = [] then [] else '.' :: fraction := by
  rw [Decimal.digitsText, List.takeWhile_append_of_pos hwhole, List.dropWhile_append_of_pos hwhole]
  split
  · exact ⟨by simp, rfl⟩
  · exact ⟨by simp, by simp⟩

include hfraction

theorem parse?_written :
    parse? (written negative whole fraction) =
      some ⟨negative, digitsValue (whole ++ fraction), -fraction.length⟩ := by
  obtain ⟨htake, hdrop⟩ := takeWhile_digitsText hwhole fraction
  simp only [parse?, splitSign_written negative hne hwhole fraction, htake, hdrop]
  by_cases hnil : fraction = []
  · subst hnil
    rw [if_pos rfl]
    simp [hne, exponent?]
  · rw [if_neg hnil]
    have htake' : fraction.takeWhile Char.isDigit = fraction :=
      List.takeWhile_eq_self_iff.mpr hfraction
    have hdrop' : fraction.dropWhile Char.isDigit = [] := List.dropWhile_eq_nil_iff.mpr hfraction
    simp [hne, htake', hdrop', exponent?]

end Written

/-! ## Zeros that mean nothing -/

theorem digitsValue_plainWhole_append (whole fraction : List Char) :
    digitsValue (plainWhole whole ++ fraction) = digitsValue (whole ++ fraction) := by
  rw [← digitsValue_dropWhile_append whole, plainWhole]
  split
  · rw [‹whole.dropWhile _ = []›]
    rfl
  · rfl

theorem trim_div_pow (c places : Nat) :
    ((Decimal.trim c places).coefficient : ℚ) * 10 ^ (-((Decimal.trim c places).places : ℤ)) =
      c * 10 ^ (-(places : ℤ)) := by
  fun_induction Decimal.trim c places with
  | case1 c => rfl
  | case2 c places hmod ih =>
      have hten : c = c / 10 * 10 := by omega
      rw [ih]
      conv_rhs => rw [hten]
      push_cast
      rw [neg_add, zpow_add₀ (by norm_num)]
      ring
  | case3 c places hmod => rfl

/-- Leaving out zeros does not change the number. -/
theorem value_plain (negative : Bool) (whole : List Char) {fraction : List Char}
    (hfraction : ∀ c ∈ fraction, c.isDigit = true) :
    value ⟨negative, digitsValue (plainWhole whole ++ fraction.rdropWhile (· = '0')),
        -(fraction.rdropWhile (· = '0')).length⟩ =
      value ⟨negative, digitsValue (whole ++ fraction), -fraction.length⟩ := by
  have htrim := trim_div_pow (digitsValue (whole ++ fraction)) fraction.length
  rw [Decimal.trim_digitsValue whole hfraction] at htrim
  rw [digitsValue_plainWhole_append]
  simp only [value, mul_assoc, htrim]

/-! ## Printing what was read -/

section Short

variable (negative : Bool) {whole fraction : List Char} (hne : whole ≠ [])
  (hwhole : ∀ c ∈ whole, c.isDigit = true) (hfraction : ∀ c ∈ fraction, c.isDigit = true)
  (hlength : (whole.dropWhile (· = '0')).length + fraction.length ≤ 15)

include hwhole hfraction hlength

theorem digitsValue_lt_of_short : digitsValue (whole ++ fraction) < 10 ^ 15 := by
  have hdigits : ∀ c ∈ whole.dropWhile (· = '0') ++ fraction, c.isDigit = true := by
    rw [List.forall_mem_append]
    exact ⟨fun c hc ↦ hwhole c ((List.dropWhile_sublist _).mem hc), hfraction⟩
  rw [← digitsValue_dropWhile_append]
  refine lt_of_lt_of_le (digitsValue_lt hdigits) (Nat.pow_le_pow_right (by decide) ?_)
  rwa [List.length_append]

/-- The magnitude that is read is printed with the digits that it was read of. -/
theorem exists_magnitude :
    ∃ units,
      Binary64.ofDecimal? (digitsValue (whole ++ fraction)) (-fraction.length) = some units ∧
        (if units = 0 then ['0'] else (Binary64.shortest units).render) =
          Decimal.digitsText (plainWhole whole) (fraction.rdropWhile (· = '0')) := by
  have hlt := digitsValue_lt_of_short hwhole hfraction hlength
  have hplaces : fraction.length ≤ 15 := by omega
  rw [← Decimal.render_trim hwhole hfraction]
  rcases Nat.eq_zero_or_pos (digitsValue (whole ++ fraction)) with hzero | hpos
  · refine ⟨0, ?_, ?_⟩
    · rw [Binary64.ofDecimal?_neg, if_pos (.inl hzero)]
    · rw [if_pos rfl, hzero, Decimal.trim_zero]
      rfl
  · refine ⟨_, Binary64.ofDecimal?_of_lt hlt hplaces hpos, ?_⟩
    rw [if_neg (Binary64.nearest_pos hlt hplaces hpos).ne',
      Binary64.shortest_nearest hlt hplaces hpos]

include hne

theorem normalize?_written :
    normalize? (written negative whole fraction) =
      some (written negative (plainWhole whole) (fraction.rdropWhile (· = '0'))) := by
  obtain ⟨units, hunits, hmagnitude⟩ := exists_magnitude hwhole hfraction hlength
  simp only [normalize?, parse?_written negative hne hwhole hfraction, bind, Option.bind_some,
    hunits, hmagnitude, pure]
  cases negative <;> rfl

end Short

theorem isDigit_plainWhole {whole : List Char} (h : ∀ c ∈ whole, c.isDigit = true) :
    plainWhole whole ≠ [] ∧ ∀ c ∈ plainWhole whole, c.isDigit = true := by
  unfold plainWhole
  split
  · exact ⟨by simp, by simp⟩
  · exact ⟨‹_›, fun c hc ↦ h c ((List.dropWhile_sublist _).mem hc)⟩

end Numeral

/-- A number key of up to 15 digits is printed with its sign, the digits before the point without
the zeros in front, and the digits behind it without the zeros at the end.  Zeros in front are not
counted.  What is printed stands for the same number. -/
theorem LiteralKey.declaration_fifteen_digits (negative : Bool) (whole fraction : List Char)
    (hne : whole ≠ []) (hwhole : ∀ c ∈ whole, c.isDigit = true)
    (hfraction : ∀ c ∈ fraction, c.isDigit = true)
    (hlength : (whole.dropWhile (· = '0')).length + fraction.length ≤ 15) :
    (LiteralKey.number (Numeral.written negative whole fraction)).declaration =
        Numeral.written negative (Numeral.plainWhole whole) (fraction.rdropWhile (· = '0')) ∧
      ∃ n n', Numeral.parse? (Numeral.written negative whole fraction) = some n ∧
        Numeral.parse? (LiteralKey.number (Numeral.written negative whole fraction)).declaration =
          some n' ∧ n'.negative = n.negative ∧ n'.value = n.value := by
  have hprinted : (LiteralKey.number (Numeral.written negative whole fraction)).declaration =
      Numeral.written negative (Numeral.plainWhole whole) (fraction.rdropWhile (· = '0')) := by
    rw [declaration, Numeral.normalize?_written negative hne hwhole hfraction hlength,
      Option.getD_some]
  obtain ⟨hplainNe, hplain⟩ := Numeral.isDigit_plainWhole hwhole
  have htrimmed : ∀ c ∈ fraction.rdropWhile (· = '0'), c.isDigit = true := fun c hc ↦
    hfraction c ((List.rdropWhile_prefix _ fraction).mem hc)
  have hread := Numeral.parse?_written negative hplainNe hplain htrimmed
  rw [← hprinted] at hread
  exact ⟨hprinted, _, _, Numeral.parse?_written negative hne hwhole hfraction, hread, rfl,
    Numeral.value_plain negative whole hfraction⟩

/-- Fifteen digits with zeros on both sides. -/
theorem LiteralKey.declaration_fifteen_digits_zeros :
    ("0012000000000".toList.dropWhile (· = '0')).length + "1230".toList.length = 15 ∧
      (LiteralKey.number "-0012000000000.1230").declaration = "-12000000000.123" := by
  refine ⟨by decide +kernel, ?_⟩
  have hprinted := (declaration_fifteen_digits true "0012000000000".toList "1230".toList
    (by decide +kernel) (List.all_eq_true.mp (by decide +kernel))
    (List.all_eq_true.mp (by decide +kernel)) (by decide +kernel)).1
  have htext : Numeral.written true "0012000000000".toList "1230".toList =
    "-0012000000000.1230" := by decide +kernel
  rw [htext] at hprinted
  rw [hprinted]
  decide +kernel

end FluentShapes
