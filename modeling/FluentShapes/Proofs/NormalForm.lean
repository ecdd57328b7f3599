import FluentShapes.Proofs.Literal
import FluentShapes.Proofs.Numeral
import FluentShapes.Proofs.Representable

/-!
# Normal forms of number keys

A number key is read as a sign and a magnitude, and what is printed for it depends on these two
only (`normalize?_eq`).  It is in a normal form, and it is read as the same sign and magnitude again
(`read?_print`).  So printing what has been printed changes nothing.
-/

namespace FluentShapes

namespace Numeral

/-! ## Digits of a decimal -/

/-- Digits before and behind the point, without zeros that mean nothing. -/
structure IsPlain (whole fraction : List Char) : Prop where
  isDigit_whole : ∀ c ∈ whole, c.isDigit = true
  isDigit_fraction : ∀ c ∈ fraction, c.isDigit = true
  whole_ne_nil : whole ≠ []
  eq_or_head?_ne : whole = ['0'] ∨ whole.head? ≠ some '0'
  getLast?_ne : fraction.getLast? ≠ some '0'

theorem isPlain_zero : IsPlain ['0'] [] where
  isDigit_whole := by simp
  isDigit_fraction := by simp
  whole_ne_nil := by simp
  eq_or_head?_ne := .inl rfl
  getLast?_ne := by simp

theorem isPlain_trimmed {whole fraction : List Char} (hwhole : ∀ c ∈ whole, c.isDigit = true)
    (hfraction : ∀ c ∈ fraction, c.isDigit = true) :
    IsPlain (plainWhole whole) (fraction.rdropWhile (· = '0')) where
  isDigit_whole := (isDigit_plainWhole hwhole).2
  isDigit_fraction c hc := hfraction c ((List.rdropWhile_prefix _ fraction).mem hc)
  whole_ne_nil := (isDigit_plainWhole hwhole).1
  eq_or_head?_ne := by
    unfold plainWhole
    rcases dropWhile_zero_eq whole with hnil | ⟨c, rest, hcons, hc⟩
    · exact .inl (if_pos hnil)
    · rw [hcons]
      exact .inr (by simpa using hc)
  getLast?_ne := by
    intro hlast
    obtain ⟨hne, hzero⟩ := List.mem_getLast?_eq_getLast hlast
    exact List.rdropWhile_last_not (· = '0') fraction hne (by simp [← hzero])

theorem digitsValue_replicate_zero_append (n : Nat) (digits : List Char) :
    digitsValue (List.replicate n '0' ++ digits) = digitsValue digits := by
  rw [← digitsValue_dropWhile_append, List.dropWhile_replicate]
  rfl

theorem digitsValue_toDigits (n : Nat) : digitsValue (Nat.toDigits 10 n) = n :=
  Nat.ofDigitChars_toDigits (by decide) (by decide)

/-- Every decimal can be put together from digits before and behind a point. -/
theorem exists_digits (c places : Nat) :
    ∃ whole fraction, (∀ d ∈ whole, d.isDigit = true) ∧ (∀ d ∈ fraction, d.isDigit = true) ∧
      digitsValue (whole ++ fraction) = c ∧ fraction.length = places := by
  -- With as many zeros in front as there are places, there are enough digits to cut them off.
  have hdigits : ∀ d ∈ List.replicate places '0' ++ Nat.toDigits 10 c, d.isDigit = true := by
    intro d hd
    rcases List.mem_append.mp hd with hd | hd
    · rw [(List.mem_replicate.mp hd).2]
      rfl
    · exact Nat.isDigit_of_mem_toDigits (by decide) (by decide) hd
  refine ⟨(List.replicate places '0' ++ Nat.toDigits 10 c).take (Nat.toDigits 10 c).length,
    (List.replicate places '0' ++ Nat.toDigits 10 c).drop (Nat.toDigits 10 c).length,
    fun d hd ↦ hdigits d (List.mem_of_mem_take hd), fun d hd ↦ hdigits d (List.mem_of_mem_drop hd),
    ?_, ?_⟩
  · rw [List.take_append_drop, digitsValue_replicate_zero_append, digitsValue_toDigits]
  · simp

/-! ## Reading and printing -/

/-- The finite number that a text is read as, by its sign and its magnitude in units. -/
def read? (text : String) : Option (Bool × Nat) :=
  (parse? text).bind fun n ↦
    (Binary64.ofDecimal? n.coefficient n.exponent).map fun units ↦ (n.negative, units)

/-- What is written for a number. -/
def print (negative : Bool) (units : Nat) : String :=
  let magnitude := if units = 0 then ['0'] else (Binary64.shortest units).render
  String.ofList (if negative then '-' :: magnitude else magnitude)

theorem normalize?_eq (text : String) :
    normalize? text = (read? text).map fun (negative, units) ↦ print negative units := by
  unfold normalize? read?
  cases parse? text with
  | none => rfl
  | some n =>
      simp only [bind, Option.bind_some]
      cases Binary64.ofDecimal? n.coefficient n.exponent with
      | none => rfl
      | some units => rfl

theorem representable_of_read? {text : String} {negative : Bool} {units : Nat}
    (h : read? text = some (negative, units)) :
    Binary64.Representable units ∧ units < Binary64.limit := by
  obtain ⟨n, -, hn⟩ := Option.bind_eq_some_iff.mp h
  obtain ⟨_, hunits, heq⟩ := Option.map_eq_some_iff.mp hn
  cases heq
  exact Binary64.representable_of_ofDecimal? hunits

theorem read?_written (negative : Bool) {whole fraction : List Char} (h : IsPlain whole fraction) :
    read? (written negative whole fraction) =
      (Binary64.ofDecimal? (digitsValue (whole ++ fraction)) (-fraction.length)).map fun units ↦
        (negative, units) := by
  rw [read?, parse?_written negative h.whole_ne_nil h.isDigit_whole h.isDigit_fraction]
  rfl

theorem print_eq_written {negative : Bool} {units : Nat} {whole fraction : List Char}
    (h : (if units = 0 then ['0'] else (Binary64.shortest units).render) =
      Decimal.digitsText whole fraction) :
    print negative units = written negative whole fraction := by
  rw [print, written, h]
  cases negative <;> rfl

/-- What is printed for a finite number is in the normal form and is read as that number. -/
theorem read?_print (negative : Bool) {units : Nat} (h : Binary64.Representable units)
    (hlt : units < Binary64.limit) :
    ∃ whole fraction, print negative units = written negative whole fraction ∧
      IsPlain whole fraction ∧
      read? (written negative whole fraction) = some (negative, units) := by
  by_cases hzero : units = 0
  · subst hzero
    refine ⟨['0'], [], print_eq_written (if_pos rfl), isPlain_zero, ?_⟩
    rw [read?_written negative isPlain_zero, Binary64.ofDecimal?_neg, if_pos (.inl rfl)]
    rfl
  · obtain ⟨hreads, c, places, htrim⟩ := Binary64.reads_shortest h hlt
    obtain ⟨whole, fraction, hwhole, hfraction, rfl, rfl⟩ := exists_digits c places
    have hplain := isPlain_trimmed hwhole hfraction
    refine ⟨_, _, print_eq_written ?_, hplain, ?_⟩
    · rw [if_neg hzero, htrim, Decimal.render_trim hwhole hfraction]
    · rw [htrim, Decimal.trim_digitsValue whole hfraction, Binary64.reads, decide_eq_true_eq]
        at hreads
      rw [read?_written negative hplain, digitsValue_plainWhole_append, hreads]
      rfl

end Numeral

/-- A number key that is read as a finite number is printed in a normal form: a minus if the number
is negative, a zero or digits without a zero in front, and a point with digits behind it of which
the last is no zero, if there are any.  This is read as the same number, the sign of zero included,
and printed as it is.  All finite magnitudes can be read.  Any other number key is quoted, which
makes it a string literal exactly if there is no carriage return in it. -/
theorem LiteralKey.declaration_normal_form (text : String) :
    (∀ negative units, Numeral.read? text = some (negative, units) →
        ∃ whole fraction,
          (LiteralKey.number text).declaration = Numeral.written negative whole fraction ∧
          Numeral.IsPlain whole fraction ∧
          Numeral.read? (LiteralKey.number text).declaration = some (negative, units) ∧
          (LiteralKey.number (LiteralKey.number text).declaration).declaration =
            (LiteralKey.number text).declaration) ∧
      (∀ negative units, (∃ t, Numeral.read? t = some (negative, units)) ↔
        Binary64.Representable units ∧ units < Binary64.limit) ∧
      (Numeral.read? text = none →
        (LiteralKey.number text).declaration = quote text ∧
          ((Script.stringValue? (LiteralKey.number text).declaration).isSome = true ↔
            '\r' ∉ text.toList)) := by
  refine ⟨fun negative units hread ↦ ?_, fun negative units ↦ ⟨?_, ?_⟩, fun hread ↦ ?_⟩
  · obtain ⟨h, hlt⟩ := Numeral.representable_of_read? hread
    obtain ⟨whole, fraction, hprint, hplain, hagain⟩ := Numeral.read?_print negative h hlt
    have hprinted (t : String) (ht : Numeral.read? t = some (negative, units)) :
        (LiteralKey.number t).declaration = Numeral.written negative whole fraction := by
      rw [declaration, Numeral.normalize?_eq, ht]
      exact hprint
    rw [hprinted text hread]
    exact ⟨whole, fraction, rfl, hplain, hagain, hprinted _ hagain⟩
  · rintro ⟨t, ht⟩
    exact Numeral.representable_of_read? ht
  · rintro ⟨h, hlt⟩
    obtain ⟨whole, fraction, -, -, hread⟩ := Numeral.read?_print negative h hlt
    exact ⟨_, hread⟩
  · have hquoted : (LiteralKey.number text).declaration = quote text := by
      rw [declaration, Numeral.normalize?_eq, hread, Option.map_none, Option.getD_none]
    refine ⟨hquoted, ?_⟩
    rw [hquoted, Script.stringValue?_quote]
    split <;> simp_all

/-- A number key with a carriage return is printed as something that is neither a numeral nor a
string literal. -/
theorem LiteralKey.declaration_carriageReturn :
    (LiteralKey.number "a\rb").declaration = "\"a\rb\"" ∧ Numeral.parse? "\"a\rb\"" = none ∧
      Script.stringValue? "\"a\rb\"" = none := by
  decide +kernel

end FluentShapes
