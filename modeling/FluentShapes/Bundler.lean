import FluentShapes.Compilation
import FluentShapes.Index.Json

/-! # Hooks for bundlers

Each hook takes and gives texts only. A failure is a text too.
-/

namespace FluentShapes.Bundler

def options (compact : Bool) : CompileOptions :=
  { CompileOptions.default with
    inference := if compact then .compact else .default }

/-- The declarations of a module and its index as JSON. -/
structure Output where
  declarations : String
  index : String

def compile? (source request : String) (compact : Bool) : Option (Except String Output) :=
  match Request.parse request with
  | .error e => some (.error ("Request error: " ++ e.message))
  | .ok request =>
      (Compilation.ofSource? source request (options compact)).map fun
        | .error e => .error ("Compile error: " ++ e.message)
        | .ok c => .ok ⟨c.declarations, c.index.toJson.compact⟩

/-- The index as JSON. -/
def infer? (source : String) (compact : Bool) : Option (Except String String) :=
  (Resource.parse? source).map fun
    | .error errors => .error ("Parse error: " ++ SyntaxError.displayList errors)
    | .ok body =>
        match Index.ofResource (options compact).inference body with
        | .error c => .error ("Inference error: " ++ c.message)
        | .ok index => .ok index.toJson.compact

/-- What is wrong with a source; empty if nothing is. -/
def checkSyntax? (source : String) : Option String :=
  (Resource.parse? source).map fun
    | .error errors => SyntaxError.displayList errors
    | .ok _ => ""

end FluentShapes.Bundler
