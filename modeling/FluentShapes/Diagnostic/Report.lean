import FluentShapes.Diagnostic.Basic
import FluentShapes.Text.Classes
import FluentShapes.Text.Position

/-! # Reports on syntax errors -/

namespace FluentShapes

/-- A syntax error as it is shown to a reader. The location and the label are missing if the error is
outside the text, and the label is if nothing points to it. -/
structure Report where
  location : Option String
  /-- The first line of the message, which stands beside the source. -/
  label : Option String
  /-- The lines of the message that are left, which stand below it. -/
  below : Option String
deriving DecidableEq

namespace Report

def header : String := "Error: Invalid Fluent syntax"

/-- The number of characters in the first `bytes` bytes, or `none` if that cuts a character. -/
def charsBefore? : Nat → List Char → Option Nat
  | 0, _ => some 0
  | _, [] => none
  | bytes, c :: t =>
      if bytes < c.utf8Size then none else (charsBefore? (bytes - c.utf8Size) t).map (· + 1)

/-- The character offset of a byte offset. Behind the text is its end; inside a character the byte
offset itself is taken. -/
def charOffset (s : List Char) (bytes : Nat) : Nat :=
  let clamped := min bytes (utf8Length s)
  (charsBefore? clamped s).getD clamped

/-- The text behind the first line, if there is more than one. -/
def behindFirstLine? (s : List Char) : Option (List Char) :=
  match s.dropWhile (· ≠ '\n') with
  | [] => none
  | _ :: rest => some rest

/-- Whether something points to the label of an error. What is marked on one line is joined to its label
below the character in the middle, which has to take a column. What is marked on several lines is
joined to it beside them. -/
def isJoined (s : List Char) (start stop : Nat) (oneLine : Bool) : Bool :=
  !oneLine || !((s.drop ((start + stop) / 2)).head?.any Text.isColumnless)

/-- The report on an error at `location`, whose label is joined to the source or not. -/
def labelled (location message : String) (joined : Bool) : Report :=
  ⟨some location,
    if joined then some (String.ofList (message.toList.takeWhile (· ≠ '\n'))) else none,
    (behindFirstLine? message.toList).map String.ofList⟩

/-- The report on an error in a file. -/
def ofError (source : String) (fileName : String) (e : SyntaxError) : Report :=
  let s := source.toList
  let stop := charOffset s e.stop
  let start := min (charOffset s e.start) stop
  let first := Lines.place? s start
  let last := if stop ≤ start then first else Lines.place? s (stop - 1)
  match first, last with
  | some first, some last =>
      let location := fileName ++ ":" ++ toString (first.number + 1) ++ ":"
        ++ toString (start - first.offset + 1)
      if last.offset + last.length < stop then ⟨some location, none, none⟩
      else labelled location e.message (isJoined s start stop (first.number = last.number))
  | _, _ => ⟨none, none, none⟩

end Report

end FluentShapes
