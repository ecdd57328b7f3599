import FluentShapes.Resource.Basic
import FluentShapes.Resource.Blank

/-! # The lines of a pattern

The text of a pattern is cut where a line ends and where a placeable starts. The margin that the
lines share is taken off, and so are the blanks behind the last visible piece.
-/

namespace FluentShapes

/-- Where a piece of a pattern stands. -/
inductive Position where
  /-- Behind the equals sign or the closing bracket that opens the pattern. -/
  | opening
  | lineStart
  | inLine
deriving DecidableEq

/-- What ended a run of text. -/
inductive Stop where
  | lineFeed
  /-- The line feed behind the carriage return is left to be read. -/
  | carriageReturn
  | openingBrace
  | closingBrace
  | textEnd
deriving DecidableEq

def Stop.position : Stop → Position
  | lineFeed | carriageReturn => .lineStart
  | openingBrace | closingBrace | textEnd => .inLine

/-- A run of text up to the end of its line or the next brace. -/
structure Run (s : List Char) where
  content : List Char
  stop : Stop
  rest : Rest s

namespace Run

def tail {c : Char} {t : List Char} (r : Run t) : Run (c :: t) := ⟨r.content, r.stop, r.rest.tail⟩

def cons {s : List Char} (c : Char) (r : Run s) : Run s := { r with content := c :: r.content }

/-- The run at the start of a text. -/
def ofText : (s : List Char) → Run s
  | [] => ⟨[], .textEnd, .start []⟩
  | '\n' :: t => ⟨['\n'], .lineFeed, (Rest.start t).tail⟩
  | '\r' :: '\n' :: t => ⟨[], .carriageReturn, (Rest.start ('\n' :: t)).tail⟩
  | '\x7b' :: _ => ⟨[], .openingBrace, .start _⟩
  | '\x7d' :: _ => ⟨[], .closingBrace, .start _⟩
  | c :: t => ((ofText t).cons c).tail

/-- The run that starts with `c`, which is no brace. -/
def ofHead (c : Char) (t : List Char) : Run t :=
  if c = '\n' then ⟨['\n'], .lineFeed, .start t⟩
  else if c = '\r' && t.head? = some '\n' then ⟨[], .carriageReturn, .start t⟩
  else (ofText t).cons c

end Run

/-- How a pattern goes on at the text `c :: t`, where no placeable starts. -/
inductive Continuation (c : Char) (t : List Char) where
  | ends (rest : Rest (c :: t))
  | text (indent : Option Nat) (run : Run t)

namespace Continuation

variable (c : Char) (t : List Char)

/-- These cannot start an indented line of text. -/
def isLineOpener (c : Char) : Bool := c = '.' || c = '\x7d' || c = '[' || c = '*'

/-- A line belongs to the pattern if it is indented and starts with text, or if it is empty. -/
def ofLineStart : Continuation c t :=
  if c = ' ' then
    let r := (Rest.start t).blankInline
    match r.text with
    | [] => .ends r.tail
    | d :: _ =>
        if isLineOpener d then .ends (.start (c :: t))
        else
          let run := Run.ofText r.text
          .text (some (t.length - r.text.length + 1)) ⟨run.content, run.stop, r.trans run.rest⟩
  else if c = '\n' || c = '\r' then .text (some 0) (Run.ofHead c t)
  else .ends (.start (c :: t))

def ofPosition (position : Position) : Continuation c t :=
  if position = .lineStart then ofLineStart c t else .text none (Run.ofHead c t)

end Continuation

/-- A piece of a pattern as it was read. -/
inductive Chunk where
  /-- Text that starts a line comes with the number of spaces before it. -/
  | text (indent : Option Nat) (content : List Char)
  | placeable (startsLine : Bool) (expression : Expression)

namespace Chunk

def isBlank : Chunk → Bool
  | text _ content => content.all fun c ↦ c = ' ' || c = '\n'
  | placeable .. => false

/-- The margin that a chunk allows. -/
def margin? : Chunk → Option Nat
  | text indent content => if (text indent content).isBlank then none else indent
  | placeable startsLine _ => if startsLine then some 0 else none

/-- The chunk that a run leaves. Of the blank runs at a line start only line ends count. -/
def ofRun {s : List Char} (indent : Option Nat) (run : Run s) : List Chunk :=
  let chunk := text indent run.content
  if run.content.isEmpty || (indent.isSome && chunk.isBlank && run.stop != .lineFeed) then []
  else [chunk]

/-- The element without the margin. -/
def element (margin : Option Nat) : Chunk → Element
  | text none content => .text (String.ofList content)
  | text (some indent) content =>
      let spaces := indent - min indent (margin.getD indent)
      .text (String.ofList (List.replicate spaces ' ' ++ content))
  | placeable _ expression => .placeable expression

end Chunk

/-- The list without its longest end of members that satisfy `p`. -/
def dropTrailing {α : Type} (p : α → Bool) (l : List α) : List α := (l.reverse.dropWhile p).reverse

def Element.trimEnd : Element → Element
  | text value =>
      text (String.ofList (dropTrailing (fun c ↦ c = ' ' || c = '\r' || c = '\n') value.toList))
  | placeable expression => placeable expression

/-- `none` if nothing visible is there. -/
def Pattern.ofChunks? (chunks : List Chunk) : Option Pattern :=
  let margin := (chunks.filterMap Chunk.margin?).min?
  match chunks.reverse.dropWhile Chunk.isBlank with
  | [] => none
  | last :: before =>
      some (before.reverse.map (Chunk.element margin) ++ [(last.element margin).trimEnd])

end FluentShapes
