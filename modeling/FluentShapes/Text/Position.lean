/-! # Positions in a text

A place in a text is given by the bytes in front of it, or by its line.
-/

namespace FluentShapes

/-! ## Bytes -/

/-- The number of bytes of a text in UTF-8. -/
def utf8Length : List Char → Nat
  | [] => 0
  | c :: s => c.utf8Size + utf8Length s

@[simp] theorem utf8Length_nil : utf8Length [] = 0 := rfl

@[simp] theorem utf8Length_cons (c : Char) (s : List Char) :
    utf8Length (c :: s) = c.utf8Size + utf8Length s := rfl

@[simp] theorem utf8Length_append (s t : List Char) :
    utf8Length (s ++ t) = utf8Length s + utf8Length t := by
  induction s with
  | nil => simp
  | cons c s ih => simp [ih, Nat.add_assoc]

namespace Lines

/-! ## Lines

A line ends with a line feed, a carriage return or both, or with one of the vertical tab, form feed,
next line, line separator and paragraph separator characters. The terminator belongs to its line.
-/

def isTerminator (c : Char) : Bool :=
  c = '\n' || c = '\r' || c = '\x0b' || c = '\x0c' || c = '\x85' || c = '\u2028' || c = '\u2029'

/-- The lines of a text; there is no empty last one. -/
def split : List Char → List (List Char)
  | [] => []
  | '\r' :: '\n' :: t => ['\r', '\n'] :: split t
  | c :: t =>
      if isTerminator c then [c] :: split t
      else
        match split t with
        | [] => [[c]]
        | line :: lines => (c :: line) :: lines

/-- A line by its number and the number of characters before it. -/
structure Place where
  number : Nat
  offset : Nat
  length : Nat
deriving DecidableEq

/-- The last of the lines that starts at or before a character offset. The first of the lines has the
given number and offset. -/
def lineAt (number offset : Nat) (target : Nat) : List (List Char) → Option Place
  | [] => none
  | line :: lines =>
      if target < offset then none
      else
        (lineAt (number + 1) (offset + line.length) target lines).orElse fun _ ↦
          some ⟨number, offset, line.length⟩

/-- The line of a character offset. There is none past the end of the text, nor in an empty text. -/
def place? (s : List Char) (target : Nat) : Option Place :=
  if s.length < target then none else lineAt 0 0 target (split s)

end Lines

end FluentShapes
