/-! # JSON values and their texts -/

namespace FluentShapes

/-- A JSON value. Members keep their order, and a name may occur twice. -/
inductive Json where
  | null
  | bool (value : Bool)
  /-- A number as it is written. -/
  | number (literal : String)
  | string (text : String)
  | array (items : List Json)
  | object (members : List (String × Json))
  /-- A string, or an object with a member name, whose escapes hold half of a surrogate pair: it is
  well formed and stands for no text. -/
  | unpaired

namespace Json

/-- How the parts of a value are set apart. -/
structure Layout where
  /-- What separates a part that stands `depth` levels deep from what is before it. -/
  newline (depth : Nat) : List Char
  colon : List Char

def Layout.compact : Layout := ⟨fun _ ↦ [], [':']⟩

/-- Every part on a line of its own, two spaces deeper than what holds it. -/
def Layout.pretty : Layout := ⟨fun depth ↦ '\n' :: List.replicate (2 * depth) ' ', [':', ' ']⟩

def hexDigit (n : Nat) : Char := "0123456789abcdef".toList.getD n '0'

/-- The quote, the backslash and the control characters below the space are escaped. -/
def escapeChar (c : Char) : List Char :=
  if c = '"' then ['\\', '"']
  else if c = '\\' then ['\\', '\\']
  else if c = '\x08' then ['\\', 'b']
  else if c = '\x0c' then ['\\', 'f']
  else if c = '\n' then ['\\', 'n']
  else if c = '\r' then ['\\', 'r']
  else if c = '\t' then ['\\', 't']
  else if c < ' ' then ['\\', 'u', '0', '0', hexDigit (c.toNat / 16), hexDigit (c.toNat % 16)]
  else [c]

def writeString (text : String) : List Char := '"' :: (text.toList.flatMap escapeChar ++ ['"'])

mutual

/-- The text of a value that stands `depth` levels deep. -/
def write (layout : Layout) (depth : Nat) : Json → List Char
  | null => "null".toList
  | bool value => (if value then "true" else "false").toList
  | number literal => literal.toList
  | string text => writeString text
  | array [] => ['[', ']']
  | array (item :: items) =>
      '[' :: (layout.newline (depth + 1) ++ write layout (depth + 1) item
        ++ writeItems layout (depth + 1) items ++ layout.newline depth ++ [']'])
  | object [] => ['\x7b', '\x7d']
  | object ((name, value) :: members) =>
      '\x7b' :: (layout.newline (depth + 1) ++ writeString name ++ layout.colon
        ++ write layout (depth + 1) value ++ writeMembers layout (depth + 1) members
        ++ layout.newline depth ++ ['\x7d'])
  | unpaired => "\"\\ud800\"".toList

/-- Each item behind a comma. -/
def writeItems (layout : Layout) (depth : Nat) : List Json → List Char
  | [] => []
  | item :: items =>
      ',' :: (layout.newline depth ++ write layout depth item ++ writeItems layout depth items)

/-- Each member behind a comma. -/
def writeMembers (layout : Layout) (depth : Nat) : List (String × Json) → List Char
  | [] => []
  | (name, value) :: members =>
      ',' :: (layout.newline depth ++ writeString name ++ layout.colon
        ++ write layout depth value ++ writeMembers layout depth members)

end

def render (layout : Layout) (value : Json) : String := String.ofList (value.write layout 0)

def compact : Json → String := render .compact

def pretty : Json → String := render .pretty

end Json

end FluentShapes
