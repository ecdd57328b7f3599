import FluentShapes.Declaration.Module
import FluentShapes.Resource.Entries

/-! # Compiling a resource -/

namespace FluentShapes

inductive CompileError where
  | request (error : RequestError)
  | parse (path : String) (errors : List SyntaxError)
  | inference (collision : Collision)
deriving DecidableEq

def CompileError.message : CompileError → String
  | request error => error.message
  | parse path errors => "Failed to parse " ++ path ++ ": " ++ SyntaxError.displayList errors
  | inference collision => collision.message

/-- What a resource is compiled to. -/
structure Compilation where
  declarations : String
  index : Index
  /-- The errors of the entries that were skipped. -/
  syntaxErrors : List SyntaxError

namespace Compilation

/-- Infer the index of a resource and declare it. -/
def ofResource (request : Request) (options : CompileOptions) (p : Parsed) :
    Except CompileError Compilation := do
  let index ← (Index.ofResource options.inference p.body).mapError .inference
  let declarations ← (index.declarations request options).mapError .request
  pure ⟨declarations, index, p.errors⟩

/-- Compile a source. A request without the locale that it must have is refused unread. `none` if the
source has a fault that cannot be worded. -/
def ofSource? (source : String) (request : Request) (options : CompileOptions) :
    Option (Except CompileError Compilation) :=
  if options.requireLocale && request.locale.isNone then
    some (.error (.request (.missingLocale request.path)))
  else if options.strictSyntax then
    (Resource.parse? source).map fun
      | .error errors => .error (.parse request.path errors)
      | .ok body => ofResource request options ⟨body, []⟩
  else (Resource.parseLenient? source).map (ofResource request options)

end Compilation

end FluentShapes
