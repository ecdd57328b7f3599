import FluentShapes.Distinct
import FluentShapes.Table

/-! # Argument shapes -/

namespace FluentShapes

/-- A key that an argument is compared with. A number keeps the text it was written with, so it is
never the same key as a string, nor as another spelling of the same number. -/
inductive LiteralKey where
  | string (text : String)
  | number (text : String)
deriving DecidableEq

def LiteralKey.text : LiteralKey → String
  | string text | number text => text

/-- What is known of an argument: nothing, or the keys it is compared with. -/
inductive ArgumentType where
  | opaqueType
  | union (keys : Distinct LiteralKey)
deriving DecidableEq

namespace ArgumentType

def isOpaque : ArgumentType → Bool
  | opaqueType => true
  | union _ => false

/-- The union of the keys without repetition. -/
def ofKeys (keys : List LiteralKey) : ArgumentType := union (.ofList keys)

def keys : ArgumentType → List LiteralKey
  | opaqueType => []
  | union keys => keys.toList

end ArgumentType

/-- The arguments of a pattern in the order of their first mention. -/
abbrev Shape := Table String ArgumentType

end FluentShapes
