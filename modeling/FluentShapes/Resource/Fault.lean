/-! # Why an entry of a resource is broken -/

namespace FluentShapes

/-- What was wrong where the reading of an entry stopped. -/
inductive Fault where
  | expectedToken (token : Char)
  | expectedLetter
  | expectedDigit
  | expectedLineEnd
  | expectedMessageField (name : String)
  | expectedTermField (name : String)
  | expectedValue
  | expectedInline
  | expectedLiteral
  | unbalancedBrace
  | unknownEscape
  | unterminatedString
  /-- The text starts behind the `u` and ends with the character that is no hexadecimal digit. -/
  | invalidEscape (text : String)
  | calleeNotAllowed
  | repeatedArgument (name : String)
  | positionalAfterNamed
  | messageReferenceSelector
  | messageAttributeSelector
  | termReferenceSelector
  | termAttributePlaceable
  | nestedSelector
  | missingDefault
  | secondDefault
deriving DecidableEq

namespace Fault

def message : Fault → String
  | expectedToken token => "Expected a token starting with \"" ++ token.toString ++ "\""
  | expectedLetter => "Expected one of \"a-zA-Z\""
  | expectedDigit => "Expected one of \"0-9\""
  | expectedLineEnd => "Expected one of \"\n | \r\n\""
  | expectedMessageField name => "Expected a message field for \"" ++ name ++ "\""
  | expectedTermField name => "Expected a term field for \"" ++ name ++ "\""
  | expectedValue => "Expected a value"
  | expectedInline => "Expected an inline expression"
  | expectedLiteral => "Expected a string or number literal"
  | unbalancedBrace => "Unbalanced closing brace"
  | unknownEscape => "Unknown escape sequence"
  | unterminatedString => "Unterminated string literal"
  | invalidEscape text => "Invalid unicode escape sequence, \"" ++ text ++ "\""
  | calleeNotAllowed => "Callee is not allowed here"
  | repeatedArgument name => "The \"" ++ name ++ "\" argument appears twice"
  | positionalAfterNamed => "Positional arguments must come before named arguments"
  | messageReferenceSelector => "Message references can't be used as a selector"
  | messageAttributeSelector => "Message attributes can't be used as a selector"
  | termReferenceSelector => "Term references can't be used as a selector"
  | termAttributePlaceable => "Term attributes can't be used as a selector"
  | nestedSelector => "Expected a simple expression as selector"
  | missingDefault => "The select expression must have a default variant"
  | secondDefault => "A select expression can only have one default variant"

end Fault

/-- A range of bytes, from `start` up to `stop`. -/
structure Span where
  start : Nat
  stop : Nat
deriving DecidableEq

/-- The bytes at fault in an entry that starts at byte `start` and has been read up to byte `stop`: the
one there, or all that has been read of an entry that lacks a field. -/
def Fault.position (start stop : Nat) : Fault → Span
  | expectedMessageField _ | expectedTermField _ => ⟨start, stop⟩
  | _ => ⟨stop, stop + 1⟩

/-- What a broken entry leaves. -/
structure EntryError where
  fault : Fault
  position : Span
  /-- The bytes of the whole entry, if it is known how far it reaches. -/
  slice : Option Span
deriving DecidableEq

end FluentShapes
