import FluentShapes.Numeral.Basic
import Mathlib

/-!
# Digits of decimals

A list of digits is printed from its value without the zeros in front (`toDigits_digitsValue`), and
behind the point with as many of them as there were (`padded_toDigits`).  So a decimal that is put
together from the digits before and behind a point is printed as those digits again, less the zeros
at both ends (`render_trim`).
-/

namespace FluentShapes

namespace Numeral

/-! ## Values of digits -/

theorem digitsValue_eq (digits : List Char) :
    digitsValue digits = Nat.ofDigitChars 10 digits 0 := rfl

theorem digitsValue_append (a b : List Char) :
    digitsValue (a ++ b) = digitsValue a * 10 ^ b.length + digitsValue b := by
  rw [digitsValue_eq, Nat.ofDigitChars_append, Nat.ofDigitChars_eq_ofDigitChars_zero, Nat.mul_comm]
  rfl

theorem digitsValue_concat (a : List Char) (c : Char) :
    digitsValue (a ++ [c]) = digitsValue a * 10 + (c.toNat - '0'.toNat) := by
  rw [digitsValue_append]
  simp [digitsValue]

/-- The zeros in front add nothing. -/
theorem digitsValue_dropWhile_append (a b : List Char) :
    digitsValue (a.dropWhile (· = '0') ++ b) = digitsValue (a ++ b) := by
  induction a with
  | nil => rfl
  | cons c a ih =>
      by_cases hc : c = '0'
      · subst hc
        rw [List.dropWhile_cons_of_pos (by decide), ih]
        rfl
      · rw [List.dropWhile_cons_of_neg (by simpa using hc)]

theorem digit_lt {c : Char} (h : c.isDigit = true) : c.toNat - '0'.toNat < 10 := by
  have hc := Char.isDigit_iff_toNat.mp h
  have hzero : '0'.toNat = 48 := rfl
  have hnine : '9'.toNat = 57 := rfl
  omega

theorem digit_eq_zero_iff {c : Char} (h : c.isDigit = true) :
    c.toNat - '0'.toNat = 0 ↔ c = '0' := by
  have hc := Char.isDigit_iff_toNat.mp h
  rw [← Char.toNat_inj]
  omega

theorem digitsValue_lt {digits : List Char} (h : ∀ c ∈ digits, c.isDigit = true) :
    digitsValue digits < 10 ^ digits.length := by
  induction digits using List.reverseRecOn with
  | nil => decide
  | append_singleton digits c ih =>
      rw [List.forall_mem_append, List.forall_mem_singleton] at h
      have hc := digit_lt h.2
      have hdigits := ih h.1
      rw [digitsValue_concat, List.length_append, List.length_singleton, Nat.pow_succ]
      omega

/-! ## Printing a value -/

theorem toDigits_digit {c : Char} (h : c.isDigit = true) :
    Nat.toDigits 10 (c.toNat - '0'.toNat) = [c] := by
  have hc := Char.isDigit_iff_toNat.mp h
  have hchar : (c.toNat - '0'.toNat).digitChar = c := by
    rw [← Char.toNat_inj, Nat.toNat_digitChar_of_lt_ten (digit_lt h)]
    have hzero : '0'.toNat = 48 := rfl
    omega
  rw [Nat.toDigits_of_lt_base (digit_lt h), hchar]

/-- Digits are printed from their value if there is no zero in front of them. -/
theorem toDigits_digitsValue_cons {c : Char} {digits : List Char}
    (h : ∀ d ∈ c :: digits, d.isDigit = true) (hc : c ≠ '0') :
    Nat.toDigits 10 (digitsValue (c :: digits)) = c :: digits := by
  induction digits using List.reverseRecOn with
  | nil =>
      have hvalue : digitsValue [c] = c.toNat - '0'.toNat := by simp [digitsValue]
      rw [hvalue, toDigits_digit (h c List.mem_cons_self)]
  | append_singleton digits d ih =>
      rw [← List.cons_append, List.forall_mem_append, List.forall_mem_singleton] at h
      have hprinted := ih h.1
      have hpos : 0 < digitsValue (c :: digits) := by
        rw [Nat.pos_iff_ne_zero]
        intro hzero
        rw [hzero] at hprinted
        exact hc (List.cons.inj hprinted).1.symm
      rw [← List.cons_append, digitsValue_concat, Nat.mul_comm,
        ← Nat.toDigits_append_toDigits (by decide) hpos (digit_lt h.2), hprinted,
        toDigits_digit h.2]

/-- The digits without the zeros in front, but one digit at least. -/
def plainWhole (whole : List Char) : List Char :=
  if whole.dropWhile (· = '0') = [] then ['0'] else whole.dropWhile (· = '0')

theorem dropWhile_zero_eq (digits : List Char) :
    digits.dropWhile (· = '0') = [] ∨
      ∃ c rest, digits.dropWhile (· = '0') = c :: rest ∧ c ≠ '0' := by
  cases h : digits.dropWhile (· = '0') with
  | nil => exact .inl rfl
  | cons c rest =>
      refine .inr ⟨c, rest, rfl, ?_⟩
      have hhead := List.head?_dropWhile_not (· = '0') digits
      rw [h] at hhead
      simpa using hhead

theorem toDigits_digitsValue {digits : List Char} (h : ∀ c ∈ digits, c.isDigit = true) :
    Nat.toDigits 10 (digitsValue digits) = plainWhole digits := by
  have hvalue := digitsValue_dropWhile_append digits []
  rw [List.append_nil, List.append_nil] at hvalue
  rw [← hvalue, plainWhole]
  rcases dropWhile_zero_eq digits with hnil | ⟨c, rest, hcons, hc⟩
  · rw [hnil]
    rfl
  · have hdigits : ∀ d ∈ c :: rest, d.isDigit = true := by
      intro d hd
      rw [← hcons] at hd
      exact h d ((List.dropWhile_sublist _).mem hd)
    rw [hcons, toDigits_digitsValue_cons hdigits hc]
    rfl

theorem length_toDigits_digitsValue_le {digits : List Char}
    (h : ∀ c ∈ digits, c.isDigit = true) (hne : digits ≠ []) :
    (Nat.toDigits 10 (digitsValue digits)).length ≤ digits.length :=
  (Nat.length_toDigits_le_iff (by decide) (List.length_pos_of_ne_nil hne)).mpr (digitsValue_lt h)

/-- With the zeros in front that are missing, the digits are all there. -/
theorem padded_toDigits {digits : List Char} (h : ∀ c ∈ digits, c.isDigit = true)
    (hne : digits ≠ []) :
    List.replicate (digits.length - (Nat.toDigits 10 (digitsValue digits)).length) '0' ++
      Nat.toDigits 10 (digitsValue digits) = digits := by
  induction digits with
  | nil => exact absurd rfl hne
  | cons c digits ih =>
      by_cases hc : c = '0'
      · subst hc
        have hvalue : digitsValue ('0' :: digits) = digitsValue digits := rfl
        rw [hvalue]
        by_cases hnil : digits = []
        · subst hnil
          rfl
        · have hdigits : ∀ d ∈ digits, d.isDigit = true :=
            fun d hd ↦ h d (List.mem_cons_of_mem _ hd)
          have hle := length_toDigits_digitsValue_le hdigits hnil
          rw [List.length_cons, Nat.succ_sub hle, List.replicate_succ, List.cons_append,
            ih hdigits hnil]
      · rw [toDigits_digitsValue_cons h hc, Nat.sub_self]
        rfl

end Numeral

namespace Decimal

open Numeral

/-! ## Zeros at the end -/

theorem trim_zero (places : Nat) : trim 0 places = ⟨0, 0⟩ := by
  induction places with
  | zero => rfl
  | succ places ih => exact ih

theorem trim_mul_ten (coefficient places : Nat) :
    trim (coefficient * 10) (places + 1) = trim coefficient places := by
  rw [trim, if_pos (Nat.mul_mod_left coefficient 10), Nat.mul_div_cancel coefficient (by decide)]

theorem trim_mul_pow (coefficient places zeros : Nat) :
    trim (coefficient * 10 ^ zeros) (places + zeros) = trim coefficient places := by
  induction zeros with
  | zero => rw [Nat.pow_zero, Nat.mul_one, Nat.add_zero]
  | succ zeros ih => rw [Nat.pow_succ, ← Nat.mul_assoc, ← Nat.add_assoc, trim_mul_ten, ih]

/-- A fraction is trimmed as its digits are. -/
theorem trim_digitsValue (whole : List Char) {fraction : List Char}
    (h : ∀ c ∈ fraction, c.isDigit = true) :
    trim (digitsValue (whole ++ fraction)) fraction.length =
      ⟨digitsValue (whole ++ fraction.rdropWhile (· = '0')),
        (fraction.rdropWhile (· = '0')).length⟩ := by
  induction fraction using List.reverseRecOn with
  | nil => rfl
  | append_singleton fraction c ih =>
      rw [List.forall_mem_append, List.forall_mem_singleton] at h
      rw [← List.append_assoc, digitsValue_concat, List.length_append, List.length_singleton]
      by_cases hc : c = '0'
      · subst hc
        rw [List.rdropWhile_concat_pos _ _ _ (by decide), ← ih h.1]
        exact trim_mul_ten _ _
      · have hmod : ¬ (digitsValue (whole ++ fraction) * 10 + (c.toNat - '0'.toNat)) % 10 = 0 := by
          have hlt := digit_lt h.2
          have hne := mt (digit_eq_zero_iff h.2).mp hc
          omega
        rw [List.rdropWhile_concat_neg _ _ _ (by simpa using hc), trim, if_neg hmod,
          ← List.append_assoc, digitsValue_concat, List.length_append, List.length_singleton]

/-! ## Printing -/

/-- Digits before the point, and behind it if there are any. -/
def digitsText (whole fraction : List Char) : List Char :=
  whole ++ if fraction = [] then [] else '.' :: fraction

theorem render_digitsValue {whole fraction : List Char} (hwhole : ∀ c ∈ whole, c.isDigit = true)
    (hfraction : ∀ c ∈ fraction, c.isDigit = true) :
    render ⟨digitsValue (whole ++ fraction), fraction.length⟩ =
      digitsText (plainWhole whole) fraction := by
  have hlt := digitsValue_lt hfraction
  have hdiv : digitsValue (whole ++ fraction) / Nat.pow 10 fraction.length = digitsValue whole := by
    rw [digitsValue_append, Nat.pow_eq, Nat.mul_comm, Nat.mul_add_div (by omega),
      Nat.div_eq_of_lt hlt, Nat.add_zero]
  have hmod : digitsValue (whole ++ fraction) % Nat.pow 10 fraction.length =
      digitsValue fraction := by
    rw [digitsValue_append, Nat.pow_eq, Nat.mul_comm, Nat.mul_add_mod, Nat.mod_eq_of_lt hlt]
  simp only [render, hdiv, hmod, toDigits_digitsValue hwhole, List.length_eq_zero_iff, digitsText]
  split
  · rw [List.append_nil]
  · rw [padded_toDigits hfraction ‹_›]

/-- A decimal is printed as the digits that it was put together from, less the zeros at both
ends. -/
theorem render_trim {whole fraction : List Char} (hwhole : ∀ c ∈ whole, c.isDigit = true)
    (hfraction : ∀ c ∈ fraction, c.isDigit = true) :
    (trim (digitsValue (whole ++ fraction)) fraction.length).render =
      digitsText (plainWhole whole) (fraction.rdropWhile (· = '0')) := by
  rw [trim_digitsValue whole hfraction]
  exact render_digitsValue hwhole fun c hc ↦
    hfraction c ((List.rdropWhile_prefix _ fraction).mem hc)

end Decimal

end FluentShapes
