import FluentShapes.Numeral.Basic
import FluentShapes.Shape.Basic

/-! # Argument types in TypeScript -/

namespace FluentShapes

/-! ## String literals

A quote, a backslash and a line feed are escaped; all else stands for itself.
-/

namespace Quoted

def encodeChar (c : Char) : List Char :=
  if c = '"' then ['\\', '"']
  else if c = '\\' then ['\\', '\\']
  else if c = '\n' then ['\\', 'n']
  else [c]

def encode (s : List Char) : List Char := '"' :: (s.flatMap encodeChar ++ ['"'])

end Quoted

/-- The string literal of a text. -/
def quote (text : String) : String := String.ofList (Quoted.encode text.toList)

/-! ## Types -/

def isPropertyStart (c : Char) : Bool := c.isAlpha || c = '_' || c = '$'

def isPropertyPart (c : Char) : Bool := c.isAlphanum || c = '_' || c = '$'

/-- A name that can stand without quotes. -/
def isPlainProperty (name : String) : Bool :=
  match name.toList with
  | [] => false
  | c :: rest => isPropertyStart c && rest.all isPropertyPart

def propertyName (name : String) : String := if isPlainProperty name then name else quote name

/-- A number key is written in its normal form, or as a string if it is no finite number. -/
def LiteralKey.declaration : LiteralKey → String
  | string text => quote text
  | number text => (Numeral.normalize? text).getD (quote text)

/-- The union of the keys; `opaqueName` is what an argument is called of which nothing is known. -/
def ArgumentType.declaration (opaqueName : String) : ArgumentType → String
  | opaqueType => opaqueName
  | union keys =>
      if keys.toList.isEmpty then "never"
      else " | ".intercalate (keys.toList.map LiteralKey.declaration)

namespace Shape

def property (opaqueName : String) (name : String) (type : ArgumentType) : String :=
  "readonly " ++ propertyName name ++ ": " ++ type.declaration opaqueName

def declaration (opaqueName : String) (s : Shape) : String :=
  if s.isEmpty then "Record<string, never>"
  else
    "\x7b " ++ "; ".intercalate (s.entries.map fun (name, type) ↦ property opaqueName name type)
      ++ " \x7d"

end Shape

end FluentShapes
