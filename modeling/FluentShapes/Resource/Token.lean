import FluentShapes.Resource.Blank
import FluentShapes.Resource.Reading

/-! # Identifiers, numbers and string literals -/

namespace FluentShapes.Token

variable {s : List Char}

/-- Behind its first letter, an identifier goes on with these. -/
def isNameChar (c : Char) : Bool := c.isAlphanum || c = '_' || c = '-'

/-- Functions have names in upper case. -/
def isCalleeChar (c : Char) : Bool := c.isUpper || c.isDigit || c = '_' || c = '-'

def isHexDigit (c : Char) : Bool :=
  c.isDigit || ('a' ≤ c && c ≤ 'f') || ('A' ≤ c && c ≤ 'F')

def identifier (r : Rest s) : Reading s s String :=
  match h : r.text with
  | c :: t =>
      if c.isAlpha then
        .accept (String.ofList (c :: t.takeWhile isNameChar)) ((r.next h).dropWhile isNameChar)
      else .reject .expectedLetter r
  | [] => .reject .expectedLetter r

/-- The name behind a full stop, if there is one. -/
def accessor (r : Rest s) : Reading s s (Option String) :=
  match r.take? '.' with
  | some q => (identifier q).map some
  | none => .accept none r

def digits (r : Rest s) : Reading s s (List Char) :=
  match r.text.takeWhile Char.isDigit with
  | [] => .reject .expectedDigit r
  | ds => .accept ds (r.dropWhile Char.isDigit)

/-- The full stop and the digits behind it, or nothing. -/
def fraction (r : Rest s) : Reading s s (List Char) :=
  match r.take? '.' with
  | some q => (digits q).map ('.' :: ·)
  | none => .accept [] r

def unsigned (r : Rest s) : Reading s s (List Char) :=
  (digits r).andThen fun whole q ↦ (fraction q).map (whole ++ ·)

def number (r : Rest s) : Reading s s String :=
  match r.take? '-' with
  | some q => (unsigned q).map fun ds ↦ String.ofList ('-' :: ds)
  | none => (unsigned r).map String.ofList

/-- A `\u` escape that lacks hexadecimal digits, at the first character that is none. -/
def brokenEscape {α : Type} (found : List Char) (r : Rest s) : Reading s s α :=
  match r.text with
  | [] => .reject (.invalidEscape (String.ofList found)) r
  | c :: _ =>
      if c.utf8Size = 1 then .reject (.invalidEscape (String.ofList (found ++ [c]))) r
      else .garbled

/-- The inside of a string literal and its closing quote. -/
def stringBody (s : List Char) : Reading s s (List Char) :=
  match s with
  | [] => .reject (.expectedToken '"') (.start [])
  | '"' :: t => .accept [] (Rest.start t).tail
  | '\n' :: t => .reject .unterminatedString (.start ('\n' :: t))
  | '\\' :: 'u' :: t => escaped 'u' 4 t
  | '\\' :: 'U' :: t => escaped 'U' 6 t
  | '\\' :: t =>
      match t with
      | c :: u =>
          if c = '\\' || c = '\x7b' || c = '"' then
            ((stringBody u).map fun cs ↦ '\\' :: c :: cs).tail.tail
          else .reject .unknownEscape (.start ('\\' :: c :: u))
      | [] => .reject .unknownEscape (.start ['\\'])
  | c :: t => ((stringBody t).map (c :: ·)).tail
termination_by s.length
where
  /-- Behind `\u` or `\U`: so many hexadecimal digits, then the rest of the literal. -/
  escaped (mark : Char) (count : Nat) (t : List Char) :
      Reading ('\\' :: mark :: t) ('\\' :: mark :: t) (List Char) :=
    let found := t.takeWhile isHexDigit
    if found.length < count then
      (brokenEscape found ((Rest.start t).dropWhile isHexDigit)).tail.tail
    else
      let q : Rest t := ⟨t.drop count, List.drop_suffix count t⟩
      ((q.resume (stringBody q.text)).map fun cs ↦
        '\\' :: mark :: (t.take count ++ cs)).tail.tail
  termination_by t.length + 1
  decreasing_by simp +arith [List.length_drop]

end FluentShapes.Token
