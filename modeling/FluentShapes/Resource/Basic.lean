/-! # Fluent resources -/

namespace FluentShapes

/-- The key in the brackets of a variant. A number is kept as it is written. -/
inductive VariantKey where
  | identifier (name : String)
  | number (literal : String)
deriving DecidableEq

mutual

/-- An expression that can stand as an argument or a selector. Literals are kept as they are
written, escapes included. -/
inductive Inline where
  | stringLiteral (value : String)
  | numberLiteral (value : String)
  | variableReference (name : String)
  | functionReference (name : String) (arguments : CallArguments)
  | termReference (name : String) (attr : Option String) (arguments : Option CallArguments)
  | messageReference (name : String) (attr : Option String)
  | placeable (expression : Expression)

inductive CallArguments where
  | mk (positional : List Inline) (named : List NamedArgument)

inductive NamedArgument where
  | mk (name : String) (value : Inline)

inductive Expression where
  | inline (expression : Inline)
  | select (selector : Inline) (variants : List Variant)

inductive Variant where
  | mk (key : VariantKey) (value : List Element) (isDefault : Bool)

inductive Element where
  | text (value : String)
  | placeable (expression : Expression)

end

abbrev Pattern := List Element

namespace CallArguments

def positional : CallArguments → List Inline
  | mk positional _ => positional

def named : CallArguments → List NamedArgument
  | mk _ named => named

end CallArguments

namespace NamedArgument

def name : NamedArgument → String
  | mk name _ => name

def value : NamedArgument → Inline
  | mk _ value => value

end NamedArgument

namespace Variant

def key : Variant → VariantKey
  | mk key _ _ => key

def value : Variant → Pattern
  | mk _ value _ => value

def isDefault : Variant → Bool
  | mk _ _ isDefault => isDefault

end Variant

structure Attribute where
  name : String
  value : Pattern

/-- One to three number signs open the lines of a comment. -/
inductive CommentLevel where
  | entry
  | group
  | resource
deriving DecidableEq

abbrev Comment := List String

inductive Entry where
  | message (name : String) (value : Option Pattern) (attributes : List Attribute)
      (comment : Option Comment)
  | term (name : String) (value : Pattern) (attributes : List Attribute) (comment : Option Comment)
  | comment (level : CommentLevel) (lines : Comment)
  /-- Text that is no entry, up to the next line that may start one. -/
  | junk (content : String)

abbrev Resource := List Entry

namespace Entry

def isMessage : Entry → Bool
  | message .. => true
  | _ => false

/-- Only messages and terms take the comment above them. -/
def withComment? (lines : Comment) : Entry → Option Entry
  | message name value attributes _ => some (message name value attributes (some lines))
  | term name value attributes _ => some (term name value attributes (some lines))
  | _ => none

end Entry

end FluentShapes
