import FluentShapes.Json.Reader
import FluentShapes.Proofs.Lines
import Mathlib

/-!
# Quoted texts as string literals

What a script reads of a string literal, character by character: a literal in double quotes goes up
to the next quote that is not escaped, it has no line feed and no carriage return in it, and its
value is a list of code units of 16 bits.  All escapes of the language are there, though a quoted
text only has three of them.

A quoted text is a literal of the text unless there is a carriage return in it, which is left as it
is (`stringValue?_quote`).
-/

namespace FluentShapes

namespace Script

/-! ## Code units -/

/-- A code point in units of 16 bits: those above `0xFFFF` are pairs of surrogates. -/
def codeUnits (code : Nat) : List Nat :=
  if code < 0x10000 then [code]
  else [0xD800 + (code - 0x10000) / 0x400, 0xDC00 + (code - 0x10000) % 0x400]

/-- The code units of a text. -/
def utf16 (s : List Char) : List Nat := s.flatMap fun c ↦ codeUnits c.toNat

/-- No character is a surrogate, so the units of a character tell where it ends. -/
theorem codeUnits_append_inj {c d : Char} {r s : List Nat}
    (h : codeUnits c.toNat ++ r = codeUnits d.toNat ++ s) : c = d ∧ r = s := by
  have hc : c.toNat < 0xD800 ∨ 0xDFFF < c.toNat ∧ c.toNat < 0x110000 := c.valid
  have hd : d.toNat < 0xD800 ∨ 0xDFFF < d.toNat ∧ d.toNat < 0x110000 := d.valid
  rw [← Char.toNat_inj]
  unfold codeUnits at h
  split_ifs at h <;> simp only [List.cons_append, List.nil_append, List.cons.injEq] at h
  · exact h
  · omega
  · omega
  · exact ⟨by omega, h.2.2⟩

theorem codeUnits_ne_nil (code : Nat) : codeUnits code ≠ [] := by
  unfold codeUnits
  split <;> simp

/-- A text can be told from its units. -/
theorem utf16_injective {s t : List Char} (h : utf16 s = utf16 t) : s = t := by
  induction s generalizing t with
  | nil =>
      cases t with
      | nil => rfl
      | cons d t => exact absurd (List.append_eq_nil_iff.mp h.symm).1 (codeUnits_ne_nil _)
  | cons c s ih =>
      cases t with
      | nil => exact absurd (List.append_eq_nil_iff.mp h).1 (codeUnits_ne_nil _)
      | cons d t =>
          obtain ⟨rfl, hrest⟩ := codeUnits_append_inj h
          rw [ih hrest]

/-! ## String literals -/

/-- The characters that end a line. -/
def isLineTerminator (c : Char) : Bool :=
  c = '\n' || c = '\r' || c = '\u2028' || c = '\u2029'

/-- How far a literal has been read. -/
inductive Place where
  | start
  | inside
  | closed
  /-- Behind a backslash. -/
  | escape
  /-- Behind an escaped zero, where no digit may stand. -/
  | zero
  /-- Behind an escaped carriage return, which takes a line feed along. -/
  | lineEnd
  /-- Behind `\u`. -/
  | code
  /-- At a hexadecimal digit, with more to come, behind those that have a value so far. -/
  | digit (more value : Nat)
  /-- Between braces, behind digits with a value if there are any yet. -/
  | braces (value : Option Nat)

/-- A character that stands for another one behind a backslash.  Most stand for themselves. -/
def unescape (c : Char) : Char :=
  match c with
  | 'b' => '\x08'
  | 't' => '\t'
  | 'n' => '\n'
  | 'v' => '\x0b'
  | 'f' => '\x0c'
  | 'r' => '\r'
  | c => c

/-- One character inside a literal. -/
def stepInside (c : Char) : Option (List Nat × Place) :=
  if c = '"' then some ([], .closed)
  else if c = '\\' then some ([], .escape)
  else if c = '\n' || c = '\r' then none
  else some (codeUnits c.toNat, .inside)

def stepEscape (c : Char) : Option (List Nat × Place) :=
  if c = 'x' then some ([], .digit 1 0)
  else if c = 'u' then some ([], .code)
  else if c = '0' then some ([0], .zero)
  else if c.isDigit then none
  else if c = '\r' then some ([], .lineEnd)
  else if isLineTerminator c then some ([], .inside)
  else some (codeUnits (unescape c).toNat, .inside)

def stepDigit (more value : Nat) (c : Char) : Option (List Nat × Place) :=
  (Json.hexValue? c).map fun d ↦
    match more with
    | 0 => (codeUnits (value * 16 + d), .inside)
    | more + 1 => ([], .digit more (value * 16 + d))

def stepBraces (value : Option Nat) (c : Char) : Option (List Nat × Place) :=
  if c = '\x7d' then
    value.bind fun v ↦ if v ≤ 0x10FFFF then some (codeUnits v, .inside) else none
  else (Json.hexValue? c).map fun d ↦ ([], .braces (some (value.getD 0 * 16 + d)))

/-- The units that one more character gives, and where it leads. -/
def step (p : Place) (c : Char) : Option (List Nat × Place) :=
  match p with
  | .start => if c = '"' then some ([], .inside) else none
  | .inside => stepInside c
  | .closed => none
  | .escape => stepEscape c
  | .zero => if c.isDigit then none else stepInside c
  | .lineEnd => if c = '\n' then some ([], .inside) else stepInside c
  | .code => if c = '\x7b' then some ([], .braces none) else stepDigit 3 0 c
  | .digit more value => stepDigit more value c
  | .braces value => stepBraces value c

/-- The value of the rest of a literal, if there is nothing behind its closing quote. -/
def valueFrom? : Place → List Char → Option (List Nat)
  | .closed, [] => some []
  | _, [] => none
  | p, c :: s => (step p c).bind fun (units, q) ↦ (valueFrom? q s).map (units ++ ·)

/-- The value of a string literal.  `none` if the text is none. -/
def stringValue? (literal : String) : Option (List Nat) := valueFrom? .start literal.toList

theorem valueFrom?_of_step {p q : Place} {c : Char} {units : List Nat}
    (h : step p c = some (units, q)) (s : List Char) :
    valueFrom? p (c :: s) = (valueFrom? q s).map (units ++ ·) := by
  rw [valueFrom?, h, Option.bind_some]

theorem valueFrom?_of_step_eq_none {p : Place} {c : Char} (h : step p c = none) (s : List Char) :
    valueFrom? p (c :: s) = none := by
  rw [valueFrom?, h, Option.bind_none]

/-- A character of a quoted text is read as itself. -/
theorem valueFrom?_encodeChar {c : Char} (h : c ≠ '\r') (s : List Char) :
    valueFrom? .inside (Quoted.encodeChar c ++ s) =
      (valueFrom? .inside s).map (codeUnits c.toNat ++ ·) := by
  have hbackslash : step .inside '\\' = some ([], .escape) := rfl
  have hescaped : ∀ d, step .escape d = some (codeUnits c.toNat, .inside) →
      valueFrom? .inside ('\\' :: d :: s) =
        (valueFrom? .inside s).map (codeUnits c.toNat ++ ·) := by
    intro d hd
    rw [valueFrom?_of_step hbackslash, valueFrom?_of_step hd, Option.map_map]
    rfl
  unfold Quoted.encodeChar
  split_ifs with hquote hslash hnewline
  · exact hescaped '"' (by rw [hquote]; rfl)
  · exact hescaped '\\' (by rw [hslash]; rfl)
  · exact hescaped 'n' (by rw [hnewline]; rfl)
  · refine valueFrom?_of_step ?_ s
    simp [step, stepInside, hquote, hslash, hnewline, h]

theorem valueFrom?_flatMap_encodeChar {s : List Char} (h : '\r' ∉ s) :
    valueFrom? .inside (s.flatMap Quoted.encodeChar ++ ['"']) = some (utf16 s) := by
  induction s with
  | nil => rfl
  | cons c s ih =>
      rw [List.mem_cons, not_or] at h
      rw [List.flatMap_cons, List.append_assoc, valueFrom?_encodeChar (Ne.symm h.1), ih h.2]
      rfl

/-- A carriage return in a quoted text is read as it stands there, and ends the line. -/
theorem valueFrom?_of_carriageReturn {s t : List Char} (h : '\r' ∈ s) :
    valueFrom? .inside (s.flatMap Quoted.encodeChar ++ t) = none := by
  induction s with
  | nil => cases h
  | cons c s ih =>
      rw [List.flatMap_cons, List.append_assoc]
      by_cases hc : c = '\r'
      · subst hc
        exact valueFrom?_of_step_eq_none rfl _
      · have hs : '\r' ∈ s := (List.mem_cons.mp h).resolve_left (Ne.symm hc)
        rw [valueFrom?_encodeChar hc, ih hs, Option.map_none]

theorem stringValue?_quote (s : String) :
    stringValue? (quote s) = if '\r' ∈ s.toList then none else some (utf16 s.toList) := by
  have hopening : step .start '"' = some ([], .inside) := rfl
  rw [stringValue?, quote, String.toList_ofList, Quoted.encode, valueFrom?_of_step hopening]
  split
  · rw [valueFrom?_of_carriageReturn ‹_›, Option.map_none]
  · rw [valueFrom?_flatMap_encodeChar ‹_›]
    rfl

end Script

namespace Quoted

theorem carriageReturn_mem_encodeChar_iff (c : Char) : '\r' ∈ encodeChar c ↔ c = '\r' := by
  unfold encodeChar
  split_ifs with hquote hbackslash hnewline
  · simp [hquote]
  · simp [hbackslash]
  · simp [hnewline]
  · simp [eq_comm]

end Quoted

/-- A quoted text stands between two quotes, and there is no line feed between them.  It is a string
literal exactly if there is no carriage return in the text, and then its value is that text and no
other. -/
theorem quote_string_literal (s : String) :
    (∃ body : String, quote s = "\"" ++ body ++ "\"" ∧ '\n' ∉ body.toList ∧
        ('\r' ∈ body.toList ↔ '\r' ∈ s.toList)) ∧
      ((Script.stringValue? (quote s)).isSome = true ↔ '\r' ∉ s.toList) ∧
      ∀ t : String, Script.stringValue? (quote s) = some (Script.utf16 t.toList) ↔
        '\r' ∉ s.toList ∧ t = s := by
  refine ⟨⟨String.ofList (s.toList.flatMap Quoted.encodeChar), ?_, ?_, ?_⟩, ?_, fun t ↦ ?_⟩
  · rw [← String.toList_inj]
    simp [quote, Quoted.encode]
  · rw [String.toList_ofList, List.mem_flatMap]
    rintro ⟨c, -, hc⟩
    exact Quoted.newline_notMem_encodeChar c hc
  · simp only [String.toList_ofList, List.mem_flatMap, Quoted.carriageReturn_mem_encodeChar_iff,
      exists_eq_right]
  · rw [Script.stringValue?_quote]
    split <;> simp_all
  · rw [Script.stringValue?_quote]
    split
    · simp_all
    · rw [Option.some.injEq, and_iff_right ‹_›, ← String.toList_inj]
      exact ⟨fun h ↦ (Script.utf16_injective h).symm, fun h ↦ by rw [h]⟩

/-- A carriage return ends the line in the middle of the literal. -/
theorem quote_carriageReturn :
    quote "a\rb" = "\"a\rb\"" ∧ Script.stringValue? (quote "a\rb") = none := by
  decide +kernel

end FluentShapes
