import FluentShapes.Json.Basic
import FluentShapes.Text.Rest

/-! # Reading JSON texts -/

namespace FluentShapes.Json

/-- What a string literal is made of: characters, and escapes for half of a surrogate pair. -/
inductive Unit16 where
  | char (c : Char)
  | surrogate (code : Nat)

/-- The characters that the units stand for, if every surrogate has its partner. -/
def pairUnits? : List Unit16 → Option (List Char)
  | [] => some []
  | .char c :: rest => (pairUnits? rest).map (c :: ·)
  | .surrogate high :: .surrogate low :: rest =>
      if high < 0xDC00 && 0xDC00 ≤ low then
        (pairUnits? rest).map
          (Char.ofNat (0x10000 + (high - 0xD800) * 0x400 + (low - 0xDC00)) :: ·)
      else none
  | .surrogate _ :: _ => none

def hexValue? (c : Char) : Option Nat :=
  if '0' ≤ c && c ≤ '9' then some (c.toNat - '0'.toNat)
  else if 'a' ≤ c && c ≤ 'f' then some (c.toNat - 'a'.toNat + 10)
  else if 'A' ≤ c && c ≤ 'F' then some (c.toNat - 'A'.toNat + 10)
  else none

/-- The value of four hexadecimal digits. -/
def hexCode? (a b c d : Char) : Option Nat := do
  let a ← hexValue? a
  let b ← hexValue? b
  let c ← hexValue? c
  let d ← hexValue? d
  pure (((a * 16 + b) * 16 + c) * 16 + d)

def unitOfCode (code : Nat) : Unit16 :=
  if 0xD800 ≤ code && code ≤ 0xDFFF then .surrogate code else .char (Char.ofNat code)

/-- The character that a backslash and `c` stand for. -/
def simpleEscape? (c : Char) : Option Char :=
  match c with
  | '"' => some '"'
  | '\\' => some '\\'
  | '/' => some '/'
  | 'b' => some '\x08'
  | 'f' => some '\x0c'
  | 'n' => some '\n'
  | 'r' => some '\r'
  | 't' => some '\t'
  | _ => none

/-- The inside of a string literal and its closing quote. -/
def readUnits : (s : List Char) → Option (List Unit16 × Rest s)
  | [] => none
  | '"' :: t => some ([], (Rest.start t).tail)
  | '\\' :: 'u' :: a :: b :: c :: d :: t => do
      let code ← hexCode? a b c d
      let (units, r) ← readUnits t
      pure (unitOfCode code :: units, r.tail.tail.tail.tail.tail.tail)
  | '\\' :: c :: t => do
      let c ← simpleEscape? c
      let (units, r) ← readUnits t
      pure (.char c :: units, r.tail.tail)
  | c :: t =>
      if c < ' ' || c = '\\' then none
      else do
        let (units, r) ← readUnits t
        pure (.char c :: units, r.tail)

def isBlank (c : Char) : Bool := c = ' ' || c = '\n' || c = '\t' || c = '\r'

def skipBlank {s : List Char} (r : Rest s) : Rest s := r.dropWhile isBlank

section Number

variable {s : List Char}

def skipDigits? (r : Rest s) : Option (Rest s) :=
  if r.text.head?.any Char.isDigit then some (r.dropWhile Char.isDigit) else none

/-- A zero stands alone. -/
def skipWhole? (r : Rest s) : Option (Rest s) :=
  match h : r.text with
  | '0' :: t => if t.head?.any Char.isDigit then none else some (r.next h)
  | _ => skipDigits? r

def skipFraction? (r : Rest s) : Option (Rest s) :=
  match h : r.text with
  | '.' :: _ => skipDigits? (r.next h)
  | _ => some r

def skipExponent? (r : Rest s) : Option (Rest s) :=
  match h : r.text with
  | 'e' :: _ | 'E' :: _ => skipDigits? ((r.next h).skipOne fun c ↦ c = '+' || c = '-')
  | _ => some r

end Number

def readNumber (s : List Char) : Option (Json × Rest s) := do
  let whole ← skipWhole? ((Rest.start s).skipOne (· = '-'))
  let r ← skipExponent? (← skipFraction? whole)
  pure (.number (String.ofList r.consumed), r)

/-- A string literal behind its opening quote. -/
def readString (s : List Char) : Option (Option String × Rest s) := do
  let (units, r) ← readUnits s
  pure ((pairUnits? units).map String.ofList, r)

mutual

/-- The value at the start of a text. -/
def readValue (s : List Char) : Option (Json × Rest s) :=
  match s with
  | 'n' :: 'u' :: 'l' :: 'l' :: t => some (.null, (Rest.start t).tail.tail.tail.tail)
  | 't' :: 'r' :: 'u' :: 'e' :: t => some (.bool true, (Rest.start t).tail.tail.tail.tail)
  | 'f' :: 'a' :: 'l' :: 's' :: 'e' :: t =>
      some (.bool false, (Rest.start t).tail.tail.tail.tail.tail)
  | '"' :: t => do
      let (text, r) ← readString t
      pure (text.elim .unpaired .string, r.tail)
  | '[' :: t =>
      let r := skipBlank (.start t)
      match h : r.text with
      | ']' :: _ => some (.array [], (r.next h).tail)
      | _ => do
          let (items, r) ← readItems t
          pure (.array items, r.tail)
  | '\x7b' :: t =>
      let r := skipBlank (.start t)
      match h : r.text with
      | '\x7d' :: _ => some (.object [], (r.next h).tail)
      | _ => do
          let (members, r) ← readMembers t
          pure (members.elim .unpaired .object, r.tail)
  | s => readNumber s
termination_by 2 * s.length
decreasing_by all_goals grind

/-- The items up to the closing bracket. -/
def readItems (s : List Char) : Option (List Json × Rest s) := do
  let r := skipBlank (.start s)
  let (item, q) ← readValue r.text
  let r := skipBlank (r.trans q)
  match h : r.text with
  | ',' :: t => do
      let (items, q) ← readItems t
      pure (item :: items, ⟨q.text, q.suffix.trans (r.next h).suffix⟩)
  | ']' :: _ => some ([item], r.next h)
  | _ => none
termination_by 2 * s.length + 1
decreasing_by all_goals grind

/-- The members up to the closing brace, unless one of the names is no text. -/
def readMembers (s : List Char) : Option (Option (List (String × Json)) × Rest s) := do
  let r := skipBlank (.start s)
  match h : r.text with
  | '"' :: t => do
      let (name, q) ← readString t
      let r := skipBlank ((r.next h).trans q)
      match h : r.text with
      | ':' :: t => do
          let r := skipBlank (r.next h)
          let (value, q) ← readValue r.text
          let r := skipBlank (r.trans q)
          match h : r.text with
          | ',' :: t => do
              let (members, q) ← readMembers t
              pure ((do pure ((← name, value) :: (← members))),
                ⟨q.text, q.suffix.trans (r.next h).suffix⟩)
          | '\x7d' :: _ => some (name.map fun name ↦ [(name, value)], r.next h)
          | _ => none
      | _ => none
  | _ => none
termination_by 2 * s.length + 1
decreasing_by all_goals grind

end

/-- The value of a JSON text. -/
def parse? (text : String) : Option Json := do
  let r := skipBlank (.start text.toList)
  let (value, q) ← readValue r.text
  if (skipBlank q).text.isEmpty then pure value else none

end FluentShapes.Json
