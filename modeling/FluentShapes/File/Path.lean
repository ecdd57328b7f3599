import FluentShapes.Text.Classes

/-! # Paths

A path is kept as it was put together. Joining does not normalise it.
-/

namespace FluentShapes.Path

def isAbsolute (path : String) : Bool := path.toList.head? = some '/'

/-- An absolute second part replaces the first. -/
def join (base path : String) : String :=
  if isAbsolute path then path
  else if base.isEmpty || base.toList.getLast? = some '/' then base ++ path
  else base ++ "/" ++ path

/-- The names between the slashes, empty ones and dots included. -/
def names (path : String) : List String := (path.toList.splitOn '/').map String.ofList

/-- Names that stay where they are. -/
def isIdle (name : String) : Bool := name = "" || name = "."

/-- The last name of a path, unless that leads upwards. -/
def fileName? (path : String) : Option String :=
  match (names path).reverse.dropWhile isIdle with
  | [] => none
  | name :: _ => if name = ".." then none else some name

/-- A name before and behind its last full stop. A full stop in front makes no extension. -/
def splitExtension? (name : String) : Option (String × String) :=
  let reversed := name.toList.reverse
  match reversed.dropWhile (· ≠ '.') with
  | [] | [_] => none
  | _ :: stem =>
      if name = ".." then none
      else
        some (String.ofList stem.reverse,
          String.ofList (reversed.takeWhile (· ≠ '.')).reverse)

def extension? (name : String) : Option String := (splitExtension? name).map Prod.snd

/-- Replace the extension of a name, or append one. -/
def withExtension (name extension : String) : String :=
  match splitExtension? name with
  | some (stem, _) => stem ++ "." ++ extension
  | none => name ++ "." ++ extension

/-- A character of a quoted path. Escaped are the null character, the tab, the ends of lines, the double
quote and the backslash, and by their code points all that extend the character before them or cannot
be seen. -/
def escape (c : Char) : String :=
  if c = '\x00' then "\\0"
  else if c = '\t' then "\\t"
  else if c = '\n' then "\\n"
  else if c = '\r' then "\\r"
  else if c = '"' || c = '\\' then String.ofList ['\\', c]
  else if Text.isExtending c || Text.isUnseen c then
    "\\u\x7b" ++ String.ofList (Nat.toDigits 16 c.toNat) ++ "\x7d"
  else String.ofList [c]

def quoted (path : String) : String := "\"" ++ String.join (path.toList.map escape) ++ "\""

end FluentShapes.Path
