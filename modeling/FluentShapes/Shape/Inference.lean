import FluentShapes.Resource.Basic
import FluentShapes.Shape.Scope

/-! # The shape of a pattern -/

namespace FluentShapes

def VariantKey.literalKey : VariantKey → LiteralKey
  | identifier name => .string name
  | number literal => .number literal

/-- A selection narrows its selector only if that is a variable itself. -/
def Inline.narrowing (variants : List Variant) : Inline → List Mention
  | variableReference name =>
      [.selector name (.ofKeys (variants.map fun v ↦ v.key.literalKey))]
  | _ => []

mutual

/-- What an expression says about variables, from left to right. -/
def Inline.mentions : Inline → List Mention
  | .variableReference name => [.reference name]
  | .functionReference _ arguments => arguments.mentions
  | .termReference _ _ (some arguments) => arguments.mentions
  | .placeable expression => expression.mentions
  | .stringLiteral _ | .numberLiteral _ | .messageReference .. | .termReference _ _ none => []

def CallArguments.mentions : CallArguments → List Mention
  | .mk positional named => Inline.listMentions positional ++ NamedArgument.listMentions named

def Inline.listMentions : List Inline → List Mention
  | [] => []
  | e :: rest => e.mentions ++ Inline.listMentions rest

def NamedArgument.listMentions : List NamedArgument → List Mention
  | [] => []
  | .mk _ value :: rest => value.mentions ++ NamedArgument.listMentions rest

/-- The selection itself comes before what is inside its selector and its variants. -/
def Expression.mentions : Expression → List Mention
  | .inline e => e.mentions
  | .select selector variants =>
      selector.narrowing variants ++ selector.mentions ++ Variant.listMentions variants

def Variant.listMentions : List Variant → List Mention
  | [] => []
  | .mk _ value _ :: rest => Element.listMentions value ++ Variant.listMentions rest

def Element.listMentions : List Element → List Mention
  | [] => []
  | .text _ :: rest => Element.listMentions rest
  | .placeable e :: rest => e.mentions ++ Element.listMentions rest

end

namespace Pattern

def mentions (p : Pattern) : List Mention := Element.listMentions p

/-- The arguments that a pattern takes. -/
def shape (p : Pattern) : Shape := (Scope.empty.run p.mentions).shape

end Pattern

end FluentShapes
