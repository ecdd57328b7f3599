import FluentShapes.Json.Basic
import FluentShapes.Resource.Fault

/-! # Syntax errors -/

namespace FluentShapes

/-- A fault in a source and where it is, from byte `start` up to byte `stop`. -/
structure SyntaxError where
  start : Nat
  stop : Nat
  message : String
deriving DecidableEq

namespace SyntaxError

/-- The error is shown on the whole entry, or else on the bytes at fault. -/
def ofEntryError (e : EntryError) : SyntaxError :=
  let span := e.slice.getD e.position
  ⟨span.start, span.stop, e.fault.message⟩

def display (e : SyntaxError) : String :=
  "Syntax error at " ++ toString e.start ++ ".." ++ toString e.stop ++ ": " ++ e.message

def toJson (e : SyntaxError) : Json :=
  .object [
    ("span", .object [
      ("start", .number (toString e.start)),
      ("end", .number (toString e.stop))]),
    ("message", .string e.message)]

/-- The first error stands for all. -/
def displayList : List SyntaxError → String
  | [] => "no syntax errors"
  | [e] => e.display
  | e :: rest => e.display ++ " (and " ++ toString rest.length ++ " more)"

def listToJson (errors : List SyntaxError) : Json :=
  .object [("errors", .array (errors.map toJson))]

end SyntaxError

end FluentShapes
