import FluentShapes.Resource.Chunk
import FluentShapes.Resource.Token

/-! # Patterns and expressions

The readers call each other on what is left, so each call has fewer characters ahead, or as many and
a smaller piece of the grammar to read.
-/

namespace FluentShapes

/-- An argument of a call, before positional and named ones are told apart. -/
inductive Argument where
  | positional (value : Inline)
  | named (name : String) (value : Inline)

def CallArguments.ofList (arguments : List Argument) : CallArguments :=
  .mk
    (arguments.filterMap fun
      | .positional value => some value
      | .named .. => none)
    (arguments.filterMap fun
      | .positional _ => none
      | .named name value => some (.mk name value))

/-- Why an expression cannot be selected on. -/
def Inline.selectorFault? : Inline → Option Fault
  | messageReference _ none => some .messageReferenceSelector
  | messageReference _ (some _) => some .messageAttributeSelector
  | termReference _ none _ => some .termReferenceSelector
  | placeable _ => some .nestedSelector
  | _ => none

/-- Why an expression cannot stand alone in a placeable. -/
def Inline.placeableFault? : Inline → Option Fault
  | termReference _ (some _) _ => some .termAttributePlaceable
  | _ => none

namespace Grammar

open Token

variable {s : List Char}

def variantKey (r : Rest s) : Reading s s VariantKey :=
  match r.text with
  | c :: _ =>
      if c.isDigit || c = '-' then (number r).map .number else (identifier r).map .identifier
  | [] => (identifier r).map .identifier

/-- Blanks and at most one comma. -/
def separator (r : Rest s) : Rest s := ((r.blank.take? ',').getD r.blank).blank

mutual

/-- The value of a message, a term, an attribute or a variant, or `none` if there is none. -/
def pattern (s : List Char) : Reading s s (Option Pattern) :=
  let r := (Rest.start s).blankInline
  match r.lineEnd? with
  | some q =>
      (q.blankBlock.resume (chunks .lineStart q.blankBlock.text)).map Pattern.ofChunks?
  | none => (r.resume (chunks .opening r.text)).map Pattern.ofChunks?
termination_by 3 * s.length + 1
decreasing_by all_goals grind

def chunks (position : Position) (s : List Char) : Reading s s (List Chunk) :=
  match s with
  | [] => .accept [] (.start [])
  | c :: t =>
      if c = '\x7b' then
        Reading.tail <| (placeable t).andThen fun e r ↦
          (r.resume (chunks .inLine r.text)).map (.placeable (position = .lineStart) e :: ·)
      else if c = '\x7d' && position != .lineStart then .reject .unbalancedBrace (.start (c :: t))
      else
        match Continuation.ofPosition c t position with
        | .ends r => .accept [] r
        | .text indent run =>
            if run.stop = .closingBrace then .reject .unbalancedBrace run.rest.tail
            else
              Reading.tail <| (run.rest.resume (chunks run.stop.position run.rest.text)).map
                (Chunk.ofRun indent run ++ ·)
termination_by 3 * s.length
decreasing_by all_goals grind

/-- A placeable behind its opening brace. -/
def placeable (s : List Char) : Reading s s Expression :=
  let r := (Rest.start s).blank
  (r.resume (expression r.text)).andThen fun e r ↦
    (r.blankInline.expect '\x7d').map fun _ ↦ e
termination_by 3 * s.length + 2
decreasing_by all_goals grind

def expression (s : List Char) : Reading s s Expression :=
  match s with
  | [] => .reject .expectedInline (.start [])
  | c :: t =>
      (inline false c t).andThenTail fun e r ↦
        match ((r.blank.take? '-').bind fun q ↦ q.take? '>') with
        | none =>
            match e.placeableFault? with
            | some fault => .reject fault r.blank
            | none => .accept (.inline e) r.blank
        | some q =>
            match e.selectorFault? with
            | some fault => .reject fault r.blank
            | none =>
                match q.blankInline.lineEnd? with
                | none => .reject .expectedLineEnd q.blankInline
                | some q => (q.blank.resume (variants false q.blank.text)).map (.select e)
termination_by 3 * s.length + 1
decreasing_by all_goals grind

/-- The variants of a selection up to something that is none. A lone asterisk counts as the default
variant. -/
def variants (hasDefault : Bool) (s : List Char) : Reading s s (List Variant) :=
  match s with
  | '[' :: t =>
      Reading.tail <| (variant false t).andThen fun v r ↦
        (r.resume (variants hasDefault r.text)).map (v :: ·)
  | '*' :: '[' :: t =>
      if hasDefault then .reject .secondDefault (Rest.start ('[' :: t)).tail
      else
        Reading.tail <| Reading.tail <| (variant true t).andThen fun v r ↦
          (r.resume (variants true r.text)).map (v :: ·)
  | '*' :: t =>
      if hasDefault then .reject .secondDefault (Rest.start t).tail
      else .accept [] (Rest.start t).tail
  | s => if hasDefault then .accept [] (.start s) else .reject .missingDefault (.start s)
termination_by 3 * s.length
decreasing_by all_goals grind

/-- A variant behind its opening bracket. -/
def variant (isDefault : Bool) (s : List Char) : Reading s s Variant :=
  (variantKey (Rest.start s).blank).andThen fun key r ↦
  (r.blank.expect ']').andThen fun _ r ↦
  (r.resume (pattern r.text)).andThen fun value r ↦
    match value with
    | some value => .accept (.mk key value isDefault) r.blank
    | none => .reject .expectedValue r
termination_by 3 * s.length + 2
decreasing_by all_goals grind

/-- An inline expression that starts with `c`. The value of a named argument is a literal, a
function call or a message reference. -/
def inline (literalOnly : Bool) (c : Char) (t : List Char) : Reading t (c :: t) Inline :=
  if c = '"' then
    ((stringBody t).map fun cs ↦ .stringLiteral (String.ofList cs)).afterHead
  else if c.isDigit then
    ((fraction ((Rest.start t).dropWhile Char.isDigit)).map fun ds ↦
      .numberLiteral (String.ofList (c :: t.takeWhile Char.isDigit ++ ds))).afterHead
  else if c = '-' && !literalOnly then
    if t.head?.any Char.isAlpha then
      Reading.afterHead <| (identifier (.start t)).andThen fun name r ↦
        (accessor r).andThen fun attr r ↦
        (r.resume (arguments r.text)).map (.termReference name attr)
    else
      ((unsigned (.start t)).map fun ds ↦ .numberLiteral (String.ofList ('-' :: ds))).afterHead
  else if c = '$' && !literalOnly then
    ((identifier (.start t)).map .variableReference).afterHead
  else if c.isAlpha then
    let name := c :: t.takeWhile isNameChar
    let r := (Rest.start t).dropWhile isNameChar
    Reading.afterHead <| (r.resume (arguments r.text)).andThen fun arguments r ↦
      match arguments with
      | some arguments =>
          if name.all isCalleeChar then .accept (.functionReference (String.ofList name) arguments) r
          else .reject .calleeNotAllowed r
      | none => (accessor r).map (.messageReference (String.ofList name))
  else if c = '\x7b' && !literalOnly then
    ((placeable t).map .placeable).afterHead
  else .reject (if literalOnly then .expectedLiteral else .expectedInline) (.start (c :: t))
termination_by 3 * t.length + 3
decreasing_by all_goals grind

/-- The value of a named argument. -/
def literal (s : List Char) : Reading s s Inline :=
  match s with
  | [] => .reject .expectedLiteral (.start [])
  | c :: t => (inline true c t).andThenTail .accept
termination_by 3 * s.length + 1
decreasing_by all_goals grind

/-- The arguments of a call. Blanks are skipped even if no parenthesis follows. -/
def arguments (s : List Char) : Reading s s (Option CallArguments) :=
  let r := (Rest.start s).blank
  match r.take? '(' with
  | some q =>
      (q.blank.resume (argumentList [] q.blank.text)).map fun l ↦ some (CallArguments.ofList l)
  | none => .accept none r
termination_by 3 * s.length + 2
decreasing_by all_goals grind

/-- The arguments up to the closing parenthesis. `names` are the named arguments so far. -/
def argumentList (names : List String) (s : List Char) : Reading s s (List Argument) :=
  match s with
  | [] => .reject (.expectedToken ')') (.start [])
  | c :: t =>
      if c = ')' then .accept [] (Rest.start t).tail
      else
        (inline false c t).andThenTail fun e r ↦
          match e with
          | .messageReference name none =>
              match r.blank.take? ':' with
              | some q =>
                  if name ∈ names then .reject (.repeatedArgument name) r.blank
                  else
                    (q.blank.resume (literal q.blank.text)).andThen fun value r ↦
                      ((separator r).resume
                        (argumentList (name :: names) (separator r).text)).map
                          (.named name value :: ·)
              | none =>
                  if names.isEmpty then
                    ((separator r.blank).resume
                      (argumentList names (separator r.blank).text)).map (.positional e :: ·)
                  else .reject .positionalAfterNamed r.blank
          | e =>
              if names.isEmpty then
                ((separator r).resume (argumentList names (separator r).text)).map
                  (.positional e :: ·)
              else .reject .positionalAfterNamed r
termination_by 3 * s.length + 1
decreasing_by all_goals grind

end

end Grammar

end FluentShapes
